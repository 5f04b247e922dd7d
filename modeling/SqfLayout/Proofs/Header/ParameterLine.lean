import Mathlib.Data.Option.Basic
import SqfLayout.Proofs.Header.Prose
import SqfLayout.Proofs.Text.Joined

/-! The lines that declare a parameter, told from all other texts by their parts alone. -/
namespace SqfLayout.Header
open Text (Lacks joinItems isPrefixOf?_append takeWhile_append_of_head? dropWhile_append_of_head?)

/-- What a line of the parameter list is made of. -/
structure LineParts where
  digits : Text
  description : Text
  types : List Text
  documented : Text

namespace LineParts

def afterTypes (l : LineParts) : Text := "> (Default: " ++ (l.documented ++ [')'])

def afterDescription (l : LineParts) : Text := " <" ++ (joinItems l.types ++ l.afterTypes)

def text (l : LineParts) : Text :=
  l.digits ++ (": " ++ (l.description ++ l.afterDescription))

def number (l : LineParts) : Nat := Nat.ofDigitChars 10 l.digits 0

/-- The parameter that the line declares. Nothing is bound to it yet. -/
def parameter (l : LineParts) : Parameter := ⟨l.description, l.types, l.documented, none, none⟩

/-- Each part is what stands in its place: a number, a phrase, and one type or more, in which neither
an angle nor the mark between two types occurs. What is documented is any text. -/
structure Proper (l : LineParts) : Prop where
  digits_ne_nil : l.digits ≠ []
  digits : ∀ d ∈ l.digits, d.isDigit = true
  phrase : IsPhrase l.description
  types_ne_nil : l.types ≠ []
  types_apart : ∀ t ∈ l.types, Lacks ',' ' ' t ∧ '<' ∉ t ∧ '>' ∉ t

end LineParts

namespace LineParts
variable {l : LineParts}

private theorem Proper.digits_eq (hl : l.Proper) : l.text.takeWhile Char.isDigit = l.digits ∧
    l.text.dropWhile Char.isDigit = ": " ++ (l.description ++ l.afterDescription) := by
  have htext : l.text = l.digits ++ ':' :: (' ' :: (l.description ++ l.afterDescription)) := by
    simp [text]
  have hcolon : ∀ d ∈ (':' :: (' ' :: (l.description ++ l.afterDescription))).head?, d.isDigit = false := by
    rintro _ ⟨⟩
    rfl
  rw [htext]
  refine ⟨takeWhile_append_of_head? hl.digits hcolon, ?_⟩
  rw [dropWhile_append_of_head? hl.digits hcolon]
  simp

private theorem Proper.phrase?_eq (hl : l.Proper) :
    phrase? (l.description ++ l.afterDescription) = some l.description :=
  phrase?_append hl.phrase (by simp [afterDescription, phraseTail]; decide)

private theorem Proper.types_eq (hl : l.Proper) :
    Text.splitItems ((joinItems l.types ++ l.afterTypes).takeWhile isNoAngle) = l.types ∧
      (joinItems l.types ++ l.afterTypes).dropWhile isNoAngle = l.afterTypes := by
  have hangle : ∀ d ∈ joinItems l.types, isNoAngle d = true := by
    refine Text.forall_joinItems rfl rfl fun t ht d hd => ?_
    have := hl.types_apart t ht
    simp only [isNoAngle, Bool.and_eq_true, bne_iff_ne]
    exact ⟨by rintro rfl; exact this.2.1 hd, by rintro rfl; exact this.2.2 hd⟩
  have hclose : ∀ d ∈ l.afterTypes.head?, isNoAngle d = false := by
    simp [afterTypes, isNoAngle]
  rw [takeWhile_append_of_head? hangle hclose, dropWhile_append_of_head? hangle hclose]
  exact ⟨Text.splitItems_joinItems hl.types_ne_nil fun t ht => (hl.types_apart t ht).1, rfl⟩

/-- A line with proper parts is read if it carries the number asked for and all its types are known,
and what is read are the parts. -/
theorem Proper.parameterLine?_text (hl : l.Proper) (c : Convention) (ordinal : Nat) :
    parameterLine? c ordinal l.text =
      if l.number = ordinal ∧ ∀ t ∈ l.types, c.isType t = true then some l.parameter else none := by
  have hne : l.digits.isEmpty = false := by simpa using hl.digits_ne_nil
  have hlast : (l.documented ++ [')']).getLast? = some ')' := by simp
  have hdocumented : (l.documented ++ [')']).dropLast = l.documented := by simp
  unfold parameterLine?
  simp only [hl.digits_eq, hl.phrase?_eq, Option.bind_eq_bind, Option.bind_some, List.drop_left,
    isPrefixOf?_append, hne]
  rw [afterDescription, isPrefixOf?_append]
  simp only [Option.bind_some, hl.types_eq]
  rw [afterTypes, isPrefixOf?_append]
  simp only [Option.bind_some, hlast, hdocumented]
  by_cases hnumber : l.number = ordinal
  · by_cases htypes : ∀ t ∈ l.types, c.isType t = true
    · have hall : l.types.all c.isType = true := List.all_eq_true.2 htypes
      rw [if_pos ⟨hnumber, htypes⟩]
      simp [hall, ← hnumber, number, parameter]
    · have hall : l.types.all c.isType = false := by simpa using htypes
      rw [if_neg fun h => htypes h.2]
      simp [hall]
  · have hnot : (Nat.ofDigitChars 10 l.digits 0 == ordinal) = false :=
      beq_eq_false_iff_ne.2 hnumber
    rw [if_neg fun h => hnumber h.1]
    simp [hnot]

end LineParts

private theorem exists_parts {c : Convention} {ordinal : Nat} {line : Text} {p : Parameter}
    (h : parameterLine? c ordinal line = some p) : ∃ l : LineParts, l.text = line ∧ l.Proper := by
  unfold parameterLine? at h
  simp only [Option.bind_eq_bind, Option.bind_eq_some_iff, Option.guard_eq_some', Bool.and_eq_true,
    beq_iff_eq, Bool.not_eq_true', List.isEmpty_eq_false_iff,
    List.isPrefixOf?_eq_some_iff_append_eq] at h
  obtain ⟨_, ⟨hne, _⟩, rest, hcolon, description, hphrase, more, hopen, behind, hclose, _, ⟨hlast, _⟩,
    _⟩ := h
  obtain ⟨hdescription, hstart⟩ := isPhrase_of_phrase? hphrase
  have hrest : description ++ rest.drop description.length = rest := List.prefix_iff_eq_append.1 hstart
  obtain ⟨item, others, _, _, hjoin, hlacks⟩ := Text.exists_splitItems (more.takeWhile isNoAngle)
  refine ⟨⟨line.takeWhile Char.isDigit, description, item :: others, behind.dropLast⟩, ?_, ?_⟩
  · simp only [LineParts.text, LineParts.afterDescription, LineParts.afterTypes]
    rw [List.dropLast_append_getLast? _ hlast, hclose, hjoin, List.takeWhile_append_dropWhile, hopen,
      hrest, hcolon, List.takeWhile_append_dropWhile]
  · have hangle : ∀ t ∈ item :: others, ∀ d ∈ t, isNoAngle d = true := by
      intro t ht d hd
      have hmem : d ∈ more.takeWhile isNoAngle := hjoin ▸ Text.mem_joinItems ht hd
      exact List.all_eq_true.1 List.all_takeWhile d hmem
    refine ⟨hne, List.all_eq_true.1 List.all_takeWhile, hdescription, by simp, fun t ht => ?_⟩
    refine ⟨hlacks t ht, fun hd => ?_, fun hd => ?_⟩
    · exact absurd (hangle t ht _ hd) (by decide)
    · exact absurd (hangle t ht _ hd) (by decide)

private theorem LineParts.Proper.unique {l l' : LineParts} (hl : l.Proper) (hl' : l'.Proper)
    (htext : l.text = l'.text) : l = l' := by
  have hdigits : l.digits = l'.digits := by
    rw [← hl.digits_eq.1, htext, hl'.digits_eq.1]
  have hbehind : l.description ++ l.afterDescription = l'.description ++ l'.afterDescription := by
    have hcolon := hl.digits_eq.2
    rw [htext, hl'.digits_eq.2] at hcolon
    exact (List.append_cancel_left hcolon).symm
  have hdescription : l.description = l'.description := by
    have hphrase := hl.phrase?_eq
    rw [hbehind, hl'.phrase?_eq] at hphrase
    exact (Option.some.inj hphrase).symm
  have hopen : joinItems l.types ++ l.afterTypes = joinItems l'.types ++ l'.afterTypes := by
    rw [hdescription] at hbehind
    exact List.append_cancel_left (List.append_cancel_left hbehind)
  have htypes : l.types = l'.types := by
    rw [← hl.types_eq.1, hopen, hl'.types_eq.1]
  have hdocumented : l.documented = l'.documented := by
    have hclose := hl.types_eq.2
    rw [hopen, hl'.types_eq.2] at hclose
    exact (List.append_cancel_right (List.append_cancel_left hclose)).symm
  cases l
  cases l'
  simp_all only

/-- Exactly the lines with proper parts are read as a parameter, those that carry the number asked for
and name known types only; what is read are the parts. No line has such parts in two ways. -/
theorem parameterLine?_eq_some_iff (c : Convention) (ordinal : Nat) (line : Text) :
    (∀ p, parameterLine? c ordinal line = some p ↔
      ∃ l : LineParts, l.text = line ∧ l.Proper ∧ l.number = ordinal ∧
        (∀ t ∈ l.types, c.isType t = true) ∧ l.parameter = p) ∧
    ∀ l l' : LineParts, l.text = line → l'.text = line → l.Proper → l'.Proper → l = l' := by
  refine ⟨fun p => ⟨fun h => ?_, ?_⟩, ?_⟩
  · obtain ⟨l, rfl, hl⟩ := exists_parts h
    rw [hl.parameterLine?_text] at h
    split at h
    · rename_i hread
      exact ⟨l, rfl, hl, hread.1, hread.2, Option.some.inj h⟩
    · cases h
  · rintro ⟨l, rfl, hl, hnumber, htypes, rfl⟩
    rw [hl.parameterLine?_text, if_pos ⟨hnumber, htypes⟩]
  · rintro l l' rfl htext hl hl'
    exact hl.unique hl' htext.symm

example : parameterLine? .standard 7 "007: Some value <Array, Number> (Default: (<a>))" =
    some ⟨"Some value", ["Array", "Number"], "(<a>)", none, none⟩ := by
  cbv

end SqfLayout.Header
