import Mathlib
import SqfLayout.Header.Comment
import SqfLayout.Proofs.Header.ParameterLine
import SqfLayout.Proofs.Text.Joined

/-! A header written as a comment, which is read back as the same header. -/
namespace SqfLayout.Header
open Text (Lacks joinItems isPrefixOf?_append)

def parameterLine (ordinal : Nat) (p : Parameter) : Text :=
  Text.ofNat ordinal ++ (": " ++ (p.description ++ (" <" ++ (joinItems p.types ++
    ("> (Default: " ++ (p.documented ++ [')']))))))

/-- A parameter that a line can declare. Nothing is bound to it. -/
structure WritableParameter (c : Convention) (p : Parameter) : Prop where
  phrase : IsPhrase p.description
  phrase_line : '\n' ∉ p.description
  types_ne_nil : p.types ≠ []
  types_known : ∀ t ∈ p.types, c.isType t = true
  types_line : ∀ t ∈ p.types, '\n' ∉ t ∧ Lacks '*' '/' t
  types_apart : ∀ t ∈ p.types, Lacks ',' ' ' t ∧ '<' ∉ t ∧ '>' ∉ t
  documented_line : '\n' ∉ p.documented ∧ Lacks '*' '/' p.documented
  unbound : p.name? = none ∧ p.value? = none

private theorem parameterLine?_parameterLine {c : Convention} {p : Parameter}
    (hp : WritableParameter c p) (ordinal : Nat) :
    parameterLine? c ordinal (parameterLine ordinal p) = some p := by
  let l : LineParts := ⟨Text.ofNat ordinal, p.description, p.types, p.documented⟩
  have hl : l.Proper :=
    { digits_ne_nil := Nat.toDigits_ne_nil
      digits := fun d hd => Nat.isDigit_of_mem_toDigits (by decide) (by decide) hd
      phrase := hp.phrase
      types_ne_nil := hp.types_ne_nil
      types_apart := hp.types_apart }
  have hnumber : l.number = ordinal := Nat.ofDigitChars_ten_toDigits
  have hline := hl.parameterLine?_text c ordinal
  rw [if_pos ⟨hnumber, hp.types_known⟩] at hline
  obtain ⟨description, types, documented, name?, value?⟩ := p
  obtain ⟨rfl, rfl⟩ : name? = none ∧ value? = none := hp.unbound
  exact hline

/-- A line of a section. -/
def indent (text : Text) : Text := "    " ++ text

def parameterLines (ordinal : Nat) : List Parameter → List Text
  | [] => []
  | p :: rest => indent (parameterLine ordinal p) :: parameterLines (ordinal + 1) rest

/-- The lines of the comment that a header is written as. -/
def commentLines (c : Convention) (h : Header) : List Text :=
  [] :: indent c.title :: [] :: indent ("Author: " ++ joinItems h.authors) :: [] ::
    indent "Description:" :: (h.description.map indent ++
      [] :: indent "Parameter(s):" :: (parameterLines 0 h.parameters ++ [[], []]))

def comment (c : Convention) (h : Header) : Text := List.intercalate ['\n'] (commentLines c h)

/-- A line of a comment: it ends neither the comment nor, as a carriage return would, itself. -/
def PlainLine (t : Text) : Prop := '\n' ∉ t ∧ Lacks '*' '/' t ∧ t.getLast? ≠ some '\r'

/-- The lines of a comment, each without the carriage return at its end. -/
def linesOf (comment : Text) : List Text := (Text.splitLines comment).map Text.dropReturn

theorem linesOf_eq_iff {comment : Text} {lines : List Text} : linesOf comment = lines ↔
    ∃ pieces, pieces ≠ [] ∧ (∀ piece ∈ pieces, '\n' ∉ piece) ∧ comment = List.intercalate ['\n'] pieces ∧
      lines = pieces.map Text.dropReturn := by
  constructor
  · rintro rfl
    obtain ⟨hne, hfeeds, hcomment⟩ := Text.splitLines_eq_iff.1 rfl
    exact ⟨Text.splitLines comment, hne, hfeeds, hcomment, rfl⟩
  · rintro ⟨pieces, hne, hfeeds, hcomment, rfl⟩
    rw [linesOf, Text.splitLines_eq_iff.2 ⟨hne, hfeeds, hcomment⟩]

/-- A header that a comment can declare under a convention. -/
structure Writable (c : Convention) (h : Header) : Prop where
  title_line : PlainLine c.title
  title_start : c.title.head?.any Text.isSpace = false
  authors_ne_nil : h.authors ≠ []
  authors_known : ∀ a ∈ h.authors, c.isAuthor a = true
  authors_line : ∀ a ∈ h.authors, PlainLine a
  authors_apart : ∀ a ∈ h.authors, Lacks ',' ' ' a
  description_ne_nil : h.description ≠ []
  sentences : ∀ t ∈ h.description, isSentence t = true ∧ '\n' ∉ t
  parameters_ne_nil : h.parameters ≠ []
  parameters : ∀ p ∈ h.parameters, WritableParameter c p

theorem indented?_indent {t : Text} (ht : t.head?.any Text.isSpace = false) :
    indented? (indent t) = some t := by
  unfold indented? indent
  rw [isPrefixOf?_append]
  simp [ht]

section
variable {c : Convention} {h : Header} {number : Nat} {rest : List Text}

private theorem readTitle_written (hw : Writable c h) :
    readTitle c ⟨number, [] :: indent c.title :: rest⟩ = .ok ⟨number + 2, rest⟩ := by
  unfold readTitle
  rw [if_pos ⟨rfl, indented?_indent hw.title_start⟩]
  rfl

private theorem readAuthors_written (hw : Writable c h) :
    readAuthors c ⟨number, indent ("Author: " ++ joinItems h.authors) :: rest⟩ =
      .ok (h.authors, ⟨number + 1, rest⟩) := by
  have htext : indented? (indent ("Author: " ++ joinItems h.authors)) =
      some ("Author: " ++ joinItems h.authors) := indented?_indent (by simp; decide)
  have hsplit : Text.splitItems (joinItems h.authors) = h.authors :=
    Text.splitItems_joinItems hw.authors_ne_nil hw.authors_apart
  have hknown : h.authors.all c.isAuthor = true := by simpa using hw.authors_known
  unfold readAuthors
  simp only [Lines.text?, List.head?_cons, Option.bind_some, htext, isPrefixOf?_append, hsplit,
    hknown, if_true]
  rfl

private theorem isSpace_eq_false {c : Char} (hlow : '0'.toNat ≤ c.toNat) (hhigh : c.toNat ≤ 'Z'.toNat) :
    Text.isSpace c = false := by
  have hlow : 48 ≤ c.toNat := hlow
  have hhigh : c.toNat ≤ 90 := hhigh
  unfold Text.isSpace Text.whiteSpace
  rw [Ranges.contains, if_neg (by omega), Ranges.contains, if_neg (by omega), Ranges.contains,
    if_pos (by omega)]
  simp only [Bool.or_false, Bool.or_eq_false_iff, decide_eq_false_iff_not]
  omega

theorem head_of_isSentence {t : Text} (h : isSentence t = true) :
    t.head?.any Text.isSpace = false := by
  unfold isSentence at h
  split at h
  · rename_i c d rest
    simp only [Bool.and_eq_true, isCapital, decide_eq_true_eq] at h
    have hlow : 'A'.toNat ≤ c.toNat := h.1.1.1
    exact isSpace_eq_false (Nat.le_trans (by decide) hlow) h.1.1.2
  · cases h

theorem sentences_append {texts : List Text} (ht : ∀ t ∈ texts, isSentence t = true)
    (hrest : sentences rest = []) : sentences (texts.map indent ++ rest) = texts := by
  induction texts with
  | nil => exact hrest
  | cons t texts ih =>
    have hsentence := ht t (by simp)
    have htext := indented?_indent (head_of_isSentence hsentence)
    rw [List.map_cons, List.cons_append, sentences, htext, ih fun u hu => ht u (by simp [hu])]
    simp [hsentence]

private theorem readDescription_written (hw : Writable c h) :
    readDescription ⟨number, indent "Description:" :: (h.description.map indent ++ [] :: rest)⟩ =
      .ok (h.description, ⟨number + 1 + h.description.length, [] :: rest⟩) := by
  have htext : indented? (indent "Description:") = some "Description:" :=
    indented?_indent (by simp; decide)
  have hempty : indented? [] = none := by simp [indented?, List.isPrefixOf?]
  have hfound : sentences (h.description.map indent ++ [] :: rest) = h.description :=
    sentences_append (fun t ht => (hw.sentences t ht).1) (by simp [sentences, hempty])
  have hdrop : (h.description.map indent ++ [] :: rest).drop h.description.length = [] :: rest := by
    rw [List.drop_left' (by simp)]
  unfold readDescription
  simp only [Lines.text?, List.head?_cons, Option.bind_some, htext, List.tail_cons, hfound, hdrop]
  rw [if_pos ⟨trivial, hw.description_ne_nil⟩]

private theorem head_of_parameterLine (ordinal : Nat) (p : Parameter) :
    (parameterLine ordinal p).head?.any Text.isSpace = false := by
  have hne : Text.ofNat ordinal ≠ [] := Nat.toDigits_ne_nil
  obtain ⟨d, more, hd⟩ := List.exists_cons_of_ne_nil hne
  have hmem : d ∈ Nat.toDigits 10 ordinal := by
    show d ∈ Text.ofNat ordinal
    simp [hd]
  have hdigit : d.isDigit = true := Nat.isDigit_of_mem_toDigits (by decide) (by decide) hmem
  simp only [Char.isDigit, Bool.and_eq_true, decide_eq_true_eq] at hdigit
  unfold parameterLine
  rw [hd]
  exact isSpace_eq_false hdigit.1 (Nat.le_trans (show d.toNat ≤ 57 from hdigit.2) (by decide))

theorem startsBlank_of_ne_nil {line : Text} (hline : line ≠ []) (rest : List Text) :
    startsBlank (line :: rest) = false := by
  cases rest with
  | nil => rfl
  | cons next rest => simp [startsBlank, hline]

private theorem readList_written {ps : List Parameter} (hne : ps ≠ [])
    (hps : ∀ p ∈ ps, WritableParameter c p) (ordinal number : Nat) :
    readList c ordinal number (parameterLines ordinal ps ++ [[], []]) = .ok ps := by
  induction ps generalizing ordinal number with
  | nil => exact absurd rfl hne
  | cons p ps ih =>
    have hline : (indented? (indent (parameterLine ordinal p))).bind (parameterLine? c ordinal) =
        some p := by
      rw [indented?_indent (head_of_parameterLine ordinal p)]
      exact parameterLine?_parameterLine (hps p (by simp)) ordinal
    rw [parameterLines, List.cons_append, readList, hline]
    cases ps with
    | nil => rfl
    | cons q ps =>
      have hmore := ih (by simp) (fun r hr => hps r (by simp [hr])) (ordinal + 1) (number + 1)
      have hnotlast : startsBlank (parameterLines (ordinal + 1) (q :: ps) ++ [[], []]) = false := by
        exact startsBlank_of_ne_nil (by simp [indent]) _
      simp only [hnotlast, hmore]
      rfl

private theorem readParameters_written (hw : Writable c h) :
    readParameters c ⟨number, indent "Parameter(s):" ::
      (parameterLines 0 h.parameters ++ [[], []])⟩ = .ok h.parameters := by
  have htext : indented? (indent "Parameter(s):") = some "Parameter(s):" :=
    indented?_indent (by simp; decide)
  have hlist := readList_written hw.parameters_ne_nil hw.parameters 0 (number + 1)
  obtain ⟨p, ps, hps⟩ := List.exists_cons_of_ne_nil hw.parameters_ne_nil
  have hsome : ¬ ((parameterLines 0 h.parameters ++ [[], []]).head?.bind indented? =
      some (Text.ofString "None")) := by
    rw [hps, parameterLines, List.cons_append, List.head?_cons, Option.bind_some,
      indented?_indent (head_of_parameterLine 0 p)]
    simp [parameterLine, Text.ofNat]
  unfold readParameters
  simp only [Lines.text?, Lines.advance, List.head?_cons, Option.bind_some, htext, List.tail_cons,
    if_true]
  exact (if_neg hsome).trans hlist

theorem plainLine_append {t u : Text} (ht : '\n' ∉ t ∧ '*' ∉ t ∧ '\r' ∉ t)
    (hu : PlainLine u) : PlainLine (t ++ u) := by
  refine ⟨by simp [ht.1, hu.1], ?_, ?_⟩
  · induction t with
    | nil => exact hu.2.1
    | cons c t ih =>
      simp only [List.mem_cons, not_or] at ht
      have hrest := ih ⟨ht.1.2, ht.2.1.2, ht.2.2.2⟩
      exact Text.lacks_cons.2 ⟨fun h => ht.2.1.1 h.1.symm, hrest⟩
  · exact Text.getLast?_append_ne (fun h => ht.2.2 (List.mem_of_getLast? h)) hu.2.2

theorem plainLine_indent {t : Text} (ht : PlainLine t) : PlainLine (indent t) :=
  plainLine_append (by simp) ht

private theorem plainLine_authors (hw : Writable c h) :
    PlainLine ("Author: " ++ joinItems h.authors) := by
  refine plainLine_append (by simp) ⟨?_, ?_, ?_⟩
  · intro hmem
    exact Text.forall_joinItems (q := (· ≠ '\n')) (by decide) (by decide)
      (fun a ha d hd he => (hw.authors_line a ha).1 (he ▸ hd)) _ hmem rfl
  · exact Text.lacks_joinItems (by decide) (by decide) fun a ha => (hw.authors_line a ha).2.1
  · exact Text.getLast?_joinItems_ne (by decide) fun a ha => (hw.authors_line a ha).2.2

private theorem plainLine_append_cons {t u : Text} {d : Char} (ht : '\n' ∉ t ∧ Lacks '*' '/' t)
    (hd : d ≠ '*' ∧ d ≠ '/') (hu : PlainLine (d :: u)) : PlainLine (t ++ d :: u) := by
  refine ⟨?_, Text.lacks_append hd.1 hd.2 ht.2 (Text.lacks_cons.1 hu.2.1).2, ?_⟩
  · rw [List.mem_append, not_or]
    exact ⟨ht.1, hu.1⟩
  · simpa using hu.2.2

private theorem plainLine_parameterLine {p : Parameter} (hp : WritableParameter c p)
    (ordinal : Nat) : PlainLine (parameterLine ordinal p) := by
  have hend : PlainLine (p.documented ++ [')']) :=
    plainLine_append_cons hp.documented_line (by decide) (by simp [PlainLine])
  have htypes : PlainLine (joinItems p.types ++ ("> (Default: " ++ (p.documented ++ [')']))) := by
    have hline : '\n' ∉ joinItems p.types := fun hmem =>
      Text.forall_joinItems (q := (· ≠ '\n')) (by decide) (by decide)
        (fun t ht d hd he => (hp.types_line t ht).1 (he ▸ hd)) _ hmem rfl
    have hjoined : Lacks '*' '/' (joinItems p.types) :=
      Text.lacks_joinItems (by decide) (by decide) fun t ht => (hp.types_line t ht).2
    have hmark := plainLine_append (t := "> (Default: ") (by simp) hend
    rw [Text.ofString_eq] at hmark ⊢
    exact plainLine_append_cons ⟨hline, hjoined⟩ (by decide) hmark
  have hphrase : PlainLine (p.description ++ (" <" ++ (joinItems p.types ++
      ("> (Default: " ++ (p.documented ++ [')']))))) := by
    have hmark := plainLine_append (t := " <") (by simp) htypes
    have hlacks := Text.lacks_of_not_mem (b := '/') (star_not_mem_phrase hp.phrase)
    rw [Text.ofString_eq] at hmark ⊢
    exact plainLine_append_cons ⟨hp.phrase_line, hlacks⟩ (by decide) hmark
  have hcolon := plainLine_append (t := ": ") (by simp) hphrase
  have hdigit : ∀ d ∈ Text.ofNat ordinal, d.isDigit = true :=
    fun d hd => Nat.isDigit_of_mem_toDigits (by decide) (by decide) hd
  exact plainLine_append ⟨fun hmem => absurd (hdigit _ hmem) (by decide),
    fun hmem => absurd (hdigit _ hmem) (by decide),
    fun hmem => absurd (hdigit _ hmem) (by decide)⟩ hcolon

private theorem plainLine_of_mem_parameterLines {ps : List Parameter}
    (hps : ∀ p ∈ ps, WritableParameter c p) (ordinal : Nat) :
    ∀ l ∈ parameterLines ordinal ps, PlainLine l := by
  induction ps generalizing ordinal with
  | nil => simp [parameterLines]
  | cons p ps ih =>
    have hfirst := plainLine_indent (plainLine_parameterLine (hps p (by simp)) ordinal)
    have hmore := ih (fun q hq => hps q (by simp [hq])) (ordinal + 1)
    simpa [parameterLines] using ⟨hfirst, hmore⟩

private theorem plainLine_of_mem (hw : Writable c h) : ∀ l ∈ commentLines c h, PlainLine l := by
  have hempty : PlainLine [] := by simp [PlainLine]
  have hheading : PlainLine (indent "Description:") ∧ PlainLine (indent "Parameter(s):") := by
    simp [PlainLine, indent]
  have hsentence : ∀ t ∈ h.description, PlainLine (indent t) := fun t ht =>
    have hquiet := quiet_of_isSentence (hw.sentences t ht).1
    plainLine_indent ⟨(hw.sentences t ht).2, Text.lacks_of_not_mem hquiet.1, hquiet.2⟩
  intro l hl
  simp only [commentLines, List.mem_cons, List.mem_append, List.mem_map, List.not_mem_nil,
    or_false] at hl
  rcases hl with rfl | rfl | rfl | rfl | rfl | rfl | ⟨t, ht, rfl⟩ | rfl | rfl | hl | rfl | rfl
  · exact hempty
  · exact plainLine_indent hw.title_line
  · exact hempty
  · exact plainLine_indent (plainLine_authors hw)
  · exact hempty
  · exact hheading.1
  · exact hsentence t ht
  · exact hempty
  · exact hheading.2
  · exact plainLine_of_mem_parameterLines hw.parameters 0 l hl
  · exact hempty
  · exact hempty

theorem lacks_comment (hw : Writable c h) : Lacks '*' '/' (comment c h) :=
  Text.lacks_intercalate (by decide) (by decide) fun l hl => (plainLine_of_mem hw l hl).2.1

theorem linesOf_intercalate {lines : List Text} (hne : lines ≠ []) (h : ∀ l ∈ lines, PlainLine l) :
    linesOf (List.intercalate ['\n'] lines) = lines := by
  have hreturn : lines.map Text.dropReturn = lines :=
    (List.map_congr_left fun l hl => Text.dropReturn_eq_self_iff.2 (h l hl).2.2).trans (List.map_id _)
  exact linesOf_eq_iff.2 ⟨lines, hne, fun l hl => (h l hl).1, rfl, hreturn.symm⟩

private theorem ofComment_written (hw : Writable c h) :
    Lines.ofComment number (comment c h) = ⟨number, commentLines c h⟩ := by
  have hlines : linesOf (comment c h) = commentLines c h :=
    linesOf_intercalate (by simp [commentLines]) (plainLine_of_mem hw)
  rw [← hlines]
  rfl

/-- A comment that a header was written as is read as that header. -/
theorem read_comment (hw : Writable c h) (number : Nat) :
    read c number (comment c h) = .ok h := by
  have hskip (n : Nat) (line : Text) (rest : List Text) :
      Lines.skipBlank ⟨n, [] :: line :: rest⟩ = ⟨n + 1, line :: rest⟩ := rfl
  unfold read
  rw [ofComment_written hw, commentLines, readTitle_written hw]
  simp only [bind, Except.bind, hskip, readAuthors_written hw, readDescription_written hw,
    readParameters_written hw]
  rfl

end

end SqfLayout.Header
