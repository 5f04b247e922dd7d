import Mathlib.Data.List.Basic
import SqfLayout.TokenReader

/-! Templates with placeholders. Arguments are put in one after the other, so one that has a part in a later
placeholder is filled in turn; where none has, all are put in at once. -/
namespace SqfLayout
namespace Text

/-- The place of an argument in a template: its number in braces. -/
def placeholder (i : Nat) : Text := "\x7b" ++ ofNat i ++ "\x7d"

/-- The number of the argument whose placeholder a text starts with. -/
def placeholderAt? (count : Nat) (t : Text) : Option Nat :=
  (List.range count).find? fun i => (placeholder i).isPrefixOf t

/-- A piece of a template: a character that is kept, or the place of an argument. -/
inductive Slot
  | kept (c : Char)
  | argument (i : Nat)
  deriving DecidableEq, Repr

/-- The pieces of a template whose first characters, as many as told, belong to a placeholder found before. -/
def slotsFrom (count : Nat) : Nat → Text → List Slot
  | _, [] => []
  | skipped + 1, _ :: rest => slotsFrom count skipped rest
  | 0, c :: rest =>
    match placeholderAt? count (c :: rest) with
    | some i => .argument i :: slotsFrom count ((placeholder i).length - 1) rest
    | none => .kept c :: slotsFrom count 0 rest

/-- The pieces of a template, read from the left. -/
def slots (count : Nat) (template : Text) : List Slot := slotsFrom count 0 template

/-- A piece, with the first `k` arguments filled in. -/
def Slot.filled (arguments : List Text) (k : Nat) : Slot → Text
  | .kept c => [c]
  | .argument i => if i < k then arguments.getD i [] else placeholder i

def filled (arguments : List Text) (k : Nat) (pieces : List Slot) : Text := pieces.flatMap (Slot.filled arguments k)

/-- A template with every argument put in at once. What an argument holds is not looked at. -/
def fillAtOnce (template : Text) (arguments : List Text) : Text :=
  filled arguments arguments.length (slots arguments.length template)

/-- The text `a`, between `u` and `v`, has a part in an occurrence of `mark`. An empty text has one if it stands
inside. -/
def TakesPart (mark u a v : Text) : Prop :=
  ∃ x y, u ++ a ++ v = x ++ mark ++ y ∧ x.length < u.length + a.length ∧ u.length < x.length + mark.length

section Placeholders
variable {i k : Nat} {t v : Text}

private theorem placeholder_eq (i : Nat) : placeholder i = '\x7b' :: (ofNat i ++ ['\x7d']) := by
  simp [placeholder]

private theorem not_mem_ofNat {c : Char} (hc : c.isDigit = false) : c ∉ ofNat i := by
  intro h
  rw [Nat.isDigit_of_mem_toDigits (by decide) (by decide) h] at hc
  cases hc

private theorem ofNat_injective (h : ofNat i = ofNat k) : i = k := by
  have hback (n : Nat) : Nat.ofDigitChars 10 (ofNat n) 0 = n := Nat.ofDigitChars_toDigits (by decide) (by decide)
  rw [← hback i, h, hback k]

private theorem brace_not_mem : '\x7b' ∉ ofNat i ++ ['\x7d'] := by
  simpa using not_mem_ofNat (by decide)

private theorem eq_of_placeholder_isPrefix (h : placeholder k <+: placeholder i ++ v) : k = i := by
  obtain ⟨more, hmore⟩ := h
  simp only [placeholder_eq, List.cons_append, List.append_assoc, List.nil_append, List.cons.injEq, true_and]
    at hmore
  have hdigits (n : Nat) (z : Text) : (ofNat n ++ '\x7d' :: z).takeWhile (· != '\x7d') = ofNat n := by
    rw [List.takeWhile_append_of_pos, List.takeWhile_cons_of_neg (by simp), List.append_nil]
    intro c hc
    rw [bne_iff_ne]
    rintro rfl
    exact not_mem_ofNat (by decide) hc
  exact ofNat_injective (by rw [← hdigits k more, hmore, hdigits])

private theorem placeholderAt?_eq_some {count : Nat} (h : placeholderAt? count t = some i) :
    i < count ∧ placeholder i <+: t := by
  have hstarts : (placeholder i).isPrefixOf t = true := by simpa using List.find?_some h
  exact ⟨List.mem_range.1 (List.mem_of_find?_eq_some h), List.isPrefixOf_iff_prefix.1 hstarts⟩

private theorem placeholderAt?_eq_none {count : Nat} (h : placeholderAt? count t = none) (hi : i < count) :
    ¬ placeholder i <+: t := fun hprefix =>
  List.find?_eq_none.1 h i (List.mem_range.2 hi) (List.isPrefixOf_iff_prefix.2 hprefix)

end Placeholders

/-- A text is cut into pieces: no placeholder starts at a character that is kept. -/
inductive Cut (count : Nat) : Text → List Slot → Prop
  | nil : Cut count [] []
  | kept {c : Char} {t : Text} {pieces : List Slot} (hc : ∀ i < count, ¬ placeholder i <+: c :: t)
      (h : Cut count t pieces) : Cut count (c :: t) (.kept c :: pieces)
  | argument {i : Nat} {t : Text} {pieces : List Slot} (hi : i < count) (h : Cut count t pieces) :
      Cut count (placeholder i ++ t) (.argument i :: pieces)

private theorem cut_slotsFrom (count skipped : Nat) (t : Text) :
    Cut count (t.drop skipped) (slotsFrom count skipped t) := by
  fun_induction slotsFrom count skipped t with
  | case1 => simpa using Cut.nil
  | case2 skipped _ rest ih => exact ih
  | case3 c rest i hi ih =>
    obtain ⟨hcount, more, hmore⟩ := placeholderAt?_eq_some hi
    have hrest : rest.drop ((placeholder i).length - 1) = more := by
      have hpos : 0 < (placeholder i).length := by simp [placeholder_eq]
      calc rest.drop ((placeholder i).length - 1)
          = (c :: rest).drop ((placeholder i).length - 1 + 1) := rfl
        _ = (placeholder i ++ more).drop (placeholder i).length := by rw [Nat.sub_add_cancel hpos, hmore]
        _ = more := List.drop_left
    rw [hrest] at ih
    rw [List.drop_zero, ← hmore]
    exact .argument hcount ih
  | case4 c rest hnone ih => exact .kept (fun i hi => placeholderAt?_eq_none hnone hi) ih

private theorem cut_slots (count : Nat) (template : Text) : Cut count template (slots count template) :=
  cut_slotsFrom count 0 template

section
variable {mark new u v : Text}

private theorem replaceFrom_length_append (w v : Text) :
    replaceFrom mark new w.length (w ++ v) = replaceFrom mark new 0 v := by
  induction w with
  | nil => rfl
  | cons c w ih => exact ih

private theorem replace_mark_append (hmark : mark ≠ []) (v : Text) :
    replace mark new (mark ++ v) = new ++ replace mark new v := by
  obtain ⟨c, w, rfl⟩ := List.exists_cons_of_ne_nil hmark
  have hstarts : (c :: w).isPrefixOf (c :: (w ++ v)) = true := List.isPrefixOf_iff_prefix.2 ⟨v, rfl⟩
  show replaceFrom (c :: w) new 0 (c :: (w ++ v)) = _
  rw [replaceFrom, if_pos hstarts]
  exact congrArg (new ++ ·) (replaceFrom_length_append w v)

private theorem replace_append (h : ∀ x y, u = x ++ y → y ≠ [] → ¬ mark <+: y ++ v) :
    replace mark new (u ++ v) = u ++ replace mark new v := by
  induction u with
  | nil => rfl
  | cons c u ih =>
    have hc : ¬ mark.isPrefixOf (c :: (u ++ v)) = true :=
      fun hstarts => h [] (c :: u) rfl (by simp) (List.isPrefixOf_iff_prefix.1 hstarts)
    have hu : ∀ x y, u = x ++ y → y ≠ [] → ¬ mark <+: y ++ v := fun x y hxy => h (c :: x) y (by simp [hxy])
    show replaceFrom mark new 0 (c :: (u ++ v)) = _
    rw [replaceFrom, if_neg hc]
    exact congrArg (c :: ·) (ih hu)

end

section
variable {arguments : List Text} {count i k : Nat} {c : Char} {mark t w x : Text} {front pieces behind : List Slot}

@[simp] theorem filled_nil : filled arguments k [] = [] := rfl

@[simp] theorem filled_cons (slot : Slot) (pieces : List Slot) :
    filled arguments k (slot :: pieces) = slot.filled arguments k ++ filled arguments k pieces := rfl

@[simp] theorem filled_append (front pieces : List Slot) :
    filled arguments k (front ++ pieces) = filled arguments k front ++ filled arguments k pieces :=
  List.flatMap_append

@[simp] theorem Slot.filled_kept (c : Char) : (Slot.kept c).filled arguments k = [c] := rfl

private theorem Slot.filled_argument_of_lt (h : i < k) : (Slot.argument i).filled arguments k = arguments.getD i [] :=
  if_pos h

private theorem Slot.filled_argument_of_le (h : k ≤ i) : (Slot.argument i).filled arguments k = placeholder i :=
  if_neg (Nat.not_lt.2 h)

private theorem Cut.filled_zero (h : Cut count t pieces) : filled arguments 0 pieces = t := by
  induction h with
  | nil => rfl
  | kept _ _ ih => exact congrArg _ ih
  | argument _ _ ih => exact congrArg _ ih

private theorem Cut.exists_suffix (h : Cut count t (front ++ pieces)) : ∃ t', Cut count t' pieces := by
  induction front generalizing t with
  | nil => exact ⟨t, h⟩
  | cons slot front ih =>
    cases h with
    | kept _ h => exact ih h
    | argument _ h => exact ih h

/-- None of the arguments filled in so far has a part in an occurrence of a mark. -/
def Apart (arguments : List Text) (k : Nat) (mark : Text) (pieces : List Slot) : Prop :=
  ∀ front i behind, pieces = front ++ .argument i :: behind → i < k →
    ¬ TakesPart mark (filled arguments k front) (arguments.getD i []) (filled arguments k behind)

/-- An occurrence that has begun at a character of the template goes on with the template. -/
private theorem isPrefix_template (hapart : Apart arguments k mark (front ++ pieces)) (hbrace : '\x7b' ∉ w)
    (hmark : filled arguments k front ++ w = x ++ mark) (hbegun : x.length < (filled arguments k front).length)
    (hw : w <+: filled arguments k pieces) : w <+: filled arguments 0 pieces := by
  induction pieces generalizing front w with
  | nil => exact hw
  | cons slot pieces ih =>
    cases w with
    | nil => exact List.nil_prefix
    | cons d w =>
      cases slot with
      | kept c =>
        obtain ⟨rfl, hw'⟩ := List.cons_prefix_cons.1 hw
        refine List.cons_prefix_cons.2 ⟨rfl, @ih w (front ++ [.kept d]) ?_ ?_ ?_ ?_ hw'⟩
        · rwa [List.append_assoc]
        · exact fun hmem => hbrace (List.mem_cons_of_mem _ hmem)
        · simpa using hmark
        · simpa using Nat.lt_succ_of_lt hbegun
      | argument i =>
        rw [filled_cons] at hw
        by_cases hi : i < k
        · -- the argument stands inside the occurrence
          rw [Slot.filled_argument_of_lt hi] at hw
          obtain ⟨more, hmore⟩ := hw
          have hlength := congrArg List.length hmark
          simp only [List.length_append, List.length_cons] at hlength
          refine absurd ⟨x, more, ?_, by omega, by omega⟩ (hapart front i pieces rfl hi)
          rw [List.append_assoc, ← hmore, ← List.append_assoc, hmark]
        · rw [Slot.filled_argument_of_le (Nat.not_lt.1 hi), placeholder_eq] at hw
          obtain ⟨rfl, -⟩ := List.cons_prefix_cons.1 hw
          exact absurd List.mem_cons_self hbrace

private theorem not_placeholder_isPrefix {slot : Slot} {y : Text} (hcut : Cut count t (front ++ slot :: behind))
    (hk : k < count) (hapart : Apart arguments k (placeholder k) (front ++ slot :: behind)) (hslot : slot ≠ .argument k)
    (hpiece : slot.filled arguments k = x ++ y) (hy : y ≠ []) :
    ¬ placeholder k <+: y ++ filled arguments k behind := by
  intro hprefix
  cases slot with
  | kept c =>
    obtain ⟨d, y, rfl⟩ := List.exists_cons_of_ne_nil hy
    obtain ⟨rfl, rfl, rfl⟩ : x = [] ∧ d = c ∧ y = [] := by simpa [List.singleton_eq_append_iff] using hpiece
    rw [placeholder_eq, List.singleton_append] at hprefix
    obtain ⟨rfl, hdigits⟩ := List.cons_prefix_cons.1 hprefix
    obtain ⟨t', hkept⟩ := hcut.exists_suffix
    cases hkept with
    | kept hno hbehind =>
      refine hno k hk ?_
      rw [placeholder_eq, ← hbehind.filled_zero]
      refine List.cons_prefix_cons.2 ⟨rfl, ?_⟩
      have hmark : filled arguments k (front ++ [.kept '\x7b']) ++ (ofNat k ++ ['\x7d']) =
          filled arguments k front ++ placeholder k := by
        simp [placeholder_eq]
      refine isPrefix_template ?_ brace_not_mem hmark (by simp) hdigits
      rwa [List.append_assoc]
  | argument i =>
    by_cases hi : i < k
    · rw [Slot.filled_argument_of_lt hi] at hpiece
      obtain ⟨more, hmore⟩ := hprefix
      refine hapart front i behind rfl hi ⟨filled arguments k front ++ x, more, ?_, ?_, ?_⟩
      · rw [hpiece, List.append_assoc, List.append_assoc, ← hmore]
        simp
      · have hpos := List.length_pos_iff.2 hy
        simp only [hpiece, List.length_append]
        omega
      · simp only [placeholder_eq, List.length_append, List.length_cons]
        omega
    · rw [Slot.filled_argument_of_le (Nat.not_lt.1 hi)] at hpiece
      cases x with
      | nil =>
        rw [← List.nil_append y, ← hpiece] at hprefix
        exact hslot (congrArg _ (eq_of_placeholder_isPrefix hprefix).symm)
      | cons d x =>
        rw [placeholder_eq] at hpiece hprefix
        obtain ⟨e, y, rfl⟩ := List.exists_cons_of_ne_nil hy
        obtain ⟨rfl, -⟩ := List.cons_prefix_cons.1 hprefix
        have hbrace : '\x7b' ∈ ofNat i ++ ['\x7d'] := by
          rw [(List.cons.inj hpiece).2]
          simp
        exact brace_not_mem hbrace

private theorem replace_filled (front : List Slot) (hcut : Cut count t (front ++ pieces)) (hk : k < count)
    (hapart : Apart arguments k (placeholder k) (front ++ pieces)) :
    replace (placeholder k) (arguments.getD k []) (filled arguments k pieces) = filled arguments (k + 1) pieces := by
  induction pieces generalizing front with
  | nil => rfl
  | cons slot pieces ih =>
    have hrest := ih (front ++ [slot]) (by rwa [List.append_assoc]) (by rwa [List.append_assoc])
    rw [filled_cons, filled_cons, ← hrest]
    by_cases hslot : slot = .argument k
    · have hne : placeholder k ≠ [] := by simp [placeholder_eq]
      rw [hslot, Slot.filled_argument_of_le (Nat.le_refl k), Slot.filled_argument_of_lt (Nat.lt_succ_self k)]
      exact replace_mark_append hne _
    · have hsame : slot.filled arguments (k + 1) = slot.filled arguments k := by
        cases slot with
        | kept c => rfl
        | argument i =>
          have hi : i ≠ k := fun h => hslot (congrArg _ h)
          simp only [Slot.filled, show i < k + 1 ↔ i < k by omega]
      rw [hsame]
      exact replace_append fun x y => not_placeholder_isPrefix hcut hk hapart hslot

private theorem fillFrom_filled {done rest : List Text} (hdone : arguments = done ++ rest)
    (hcut : Cut arguments.length t pieces)
    (hapart : ∀ k < arguments.length, Apart arguments k (placeholder k) pieces) :
    fillFrom done.length (filled arguments done.length pieces) rest = filled arguments arguments.length pieces := by
  induction rest generalizing done with
  | nil =>
    rw [hdone, List.append_nil]
    rfl
  | cons a rest ih =>
    have hk : done.length < arguments.length := by simp [hdone]
    have ha : arguments.getD done.length [] = a := by simp [hdone]
    have hnext := replace_filled [] hcut hk (hapart _ hk)
    rw [ha] at hnext
    have hrest := @ih (done ++ [a]) (by rw [hdone, List.append_cons])
    rw [List.length_append, List.length_singleton, ← hnext] at hrest
    exact hrest

/-- Where no argument has a part in a placeholder of a later one, a template has every argument put in at once. -/
private theorem fill_eq_fillAtOnce {template : Text}
    (h : ∀ k < arguments.length, Apart arguments k (placeholder k) (slots arguments.length template)) :
    fill template arguments = fillAtOnce template arguments := by
  have hcut := cut_slots arguments.length template
  have hall := fillFrom_filled (List.nil_append arguments).symm hcut h
  rwa [List.length_nil, hcut.filled_zero] at hall

private theorem fill_singleton (template a : Text) : fill template [a] = fillAtOnce template [a] := by
  refine fill_eq_fillAtOnce fun k hk front i behind _ hi => ?_
  rw [List.length_singleton] at hk
  omega

private theorem not_takesPart {u a v : Text} (hmark : mark ≠ []) (hne : a ≠ []) (h : ∀ c ∈ a, c ∉ mark) :
    ¬ TakesPart mark u a v := by
  rintro ⟨x, y, heq, hbefore, hbehind⟩
  have hpos := List.length_pos_iff.2 hne
  have hmarkpos := List.length_pos_iff.2 hmark
  -- the first place that belongs to both
  obtain ⟨p, hp⟩ : ∃ p, p = max x.length u.length := ⟨_, rfl⟩
  have hshared : a[p - u.length]? = mark[p - x.length]? := by
    have hat := congrArg (·[p]?) heq
    simp only [List.append_assoc] at hat
    rwa [List.getElem?_append_right (by omega), List.getElem?_append_left (by omega),
      List.getElem?_append_right (by omega), List.getElem?_append_left (by omega)] at hat
  have hlt : p - u.length < a.length := by omega
  rw [List.getElem?_eq_getElem hlt] at hshared
  exact h _ (List.getElem_mem hlt) (List.mem_of_getElem? hshared.symm)

private theorem apart_of_not_mem
    (h : ∀ i < k, arguments.getD i [] ≠ [] ∧ ∀ c ∈ arguments.getD i [], c ∉ placeholder k) :
    Apart arguments k (placeholder k) pieces :=
  fun _ i _ _ hi => not_takesPart (by simp [placeholder_eq]) (h i hi).1 (h i hi).2

end

end Text

namespace Problem
open Text (fill)

/-- The message about an include is made from a template, whatever the path. -/
theorem message_unknownInclude (path : Text) :
    (unknownInclude path).message = fill "Unknown include path: \x7b0\x7d" [path] := by
  have hslots : Text.slots 1 "Unknown include path: \x7b0\x7d" =
      ("Unknown include path: " : Text).map .kept ++ [.argument 0] := by
    decide +kernel
  rw [Text.fill_singleton, Text.fillAtOnce, List.length_singleton, hslots]
  simp [message, Text.Slot.filled]

end Problem

namespace TokenReader
open Text (Apart fillAtOnce placeholder slots)

/-- The message of a template has every argument put in at once, unless an argument has a part in the placeholder
of a later one. -/
theorem reject_stated {α : Type} {template : Text} {arguments : List Text}
    (h : ∀ k < arguments.length, Apart arguments k (placeholder k) (slots arguments.length template))
    (s : List Token) : ∃ v, (reject (.stated template arguments) : TokenReader α) s = .error v s ∧
      v.problem.message = fillAtOnce template arguments :=
  ⟨_, rfl, Text.fill_eq_fillAtOnce h⟩

/-- The argument that is put in last may hold any placeholder. -/
theorem reject_stated_brace :
    ∃ v, (reject (.stated "\x7b1\x7d before \x7b0\x7d" ["a", "\x7b0\x7d"]) : TokenReader Unit)
      [Token.eos .start] = .error v [Token.eos .start] ∧ v.problem.message = "\x7b0\x7d before a" := by
  have hfilled : fillAtOnce "\x7b1\x7d before \x7b0\x7d" ["a", "\x7b0\x7d"] = "\x7b0\x7d before a" := by
    decide +kernel
  rw [← hfilled]
  refine reject_stated (fun k hk => Text.apart_of_not_mem fun i hi => ?_) _
  obtain ⟨rfl, rfl⟩ : i = 0 ∧ k = 1 := by
    simp only [List.length_cons, List.length_nil] at hk
    omega
  have hmark : placeholder 1 = ['\x7b', '1', '\x7d'] := by decide +kernel
  simp [hmark]

/-- An argument that is a placeholder itself is filled in turn. -/
theorem reject_stated_again :
    (∃ v, (reject (.stated "\x7b0\x7d\x7b1\x7d" ["\x7b1\x7d", "b"]) : TokenReader Unit) [Token.eos .start] =
      .error v [Token.eos .start] ∧ v.problem.message = "bb") ∧
    fillAtOnce "\x7b0\x7d\x7b1\x7d" ["\x7b1\x7d", "b"] = "\x7b1\x7db" :=
  ⟨⟨_, rfl, by decide +kernel⟩, by decide +kernel⟩

end TokenReader
end SqfLayout
