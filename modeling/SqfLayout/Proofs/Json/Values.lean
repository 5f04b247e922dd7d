import Mathlib.Data.List.DropRight
import SqfLayout.Json.Skip
import SqfLayout.Proofs.Json.Strings
import SqfLayout.Proofs.Lexeme.NumberLiteral

/-! The grammar of JSON text. Any value of it is passed over as a whole, however deep it nests. -/
namespace SqfLayout.Json
open Lexeme (IsDigits IsFraction IsExponent)

/-- White space between the parts of JSON text. -/
def IsGap (t : Text) : Prop := ∀ c ∈ t, isWhite c = true

/-- The digits in front of a point, without a leading zero. -/
inductive IsWhole : Text → Prop
  | zero : IsWhole ['0']
  | digits {c : Char} {ds : Text} (hc : c.isDigit = true) (hzero : c ≠ '0') (hds : ∀ d ∈ ds, d.isDigit = true) :
      IsWhole (c :: ds)

/-- A number. Its fraction and its exponent are those of any number literal. -/
inductive IsNumber : Text → Prop
  | natural {whole part power : Text} (hwhole : IsWhole whole) (hpart : IsFraction part) (hpower : IsExponent power) :
      IsNumber (whole ++ (part ++ power))
  | negative {whole part power : Text} (hwhole : IsWhole whole) (hpart : IsFraction part)
      (hpower : IsExponent power) : IsNumber ('-' :: whole ++ (part ++ power))

def Frame.opening : Frame → Char
  | .list => '['
  | .object => '\x7b'

/-- A value that is neither a list nor an object. -/
inductive IsScalar : Text → Prop
  | null : IsScalar "null"
  | yes : IsScalar "true"
  | no : IsScalar "false"
  | number {t : Text} (h : IsNumber t) : IsScalar t
  | string {t : Text} (h : IsRaw t) : IsScalar ('"' :: t ++ ['"'])

/-- The parts that values are made of. -/
inductive Part
  | value
  /-- What stands between two marks of a frame: a value, with a key if the frame is an object's. -/
  | item (frame : Frame)
  | row (frame : Frame)

/-- JSON text. -/
inductive IsJson : Part → Text → Prop
  | scalar {t : Text} (h : IsScalar t) : IsJson .value t
  | empty {gap : Text} (frame : Frame) (hgap : IsGap gap) : IsJson .value (frame.opening :: gap ++ [frame.closing])
  | filled {t : Text} {frame : Frame} (h : IsJson (.row frame) t) :
      IsJson .value (frame.opening :: t ++ [frame.closing])
  | element {before t behind : Text} (hbefore : IsGap before) (h : IsJson .value t) (hbehind : IsGap behind) :
      IsJson (.item .list) (before ++ t ++ behind)
  | member {before name gap gap' t behind : Text} (hbefore : IsGap before) (hname : IsRaw name) (hgap : IsGap gap)
      (hgap' : IsGap gap') (h : IsJson .value t) (hbehind : IsGap behind) :
      IsJson (.item .object) (before ++ '"' :: name ++ '"' :: gap ++ ':' :: gap' ++ t ++ behind)
  | last {t : Text} {frame : Frame} (h : IsJson (.item frame) t) : IsJson (.row frame) t
  | more {t u : Text} {frame : Frame} (h : IsJson (.item frame) t) (hmore : IsJson (.row frame) u) :
      IsJson (.row frame) (t ++ ',' :: u)

/-- What may stand behind a value: white space, a mark, or nothing. -/
def Ends (rest : Text) : Prop := ∀ c ∈ rest.head?, isWhite c = true ∨ c = ',' ∨ c = ']' ∨ c = '\x7d'

section
variable {gap t s ds rest part power whole : Text} {c : Char} {frame : Frame} {frames : List Frame}

private theorem skipWhite_append (hgap : IsGap gap) (s : Text) : skipWhite (gap ++ s) = skipWhite s :=
  List.dropWhile_append_of_pos hgap

private theorem skipWhite_skipWhite (s : Text) : skipWhite (skipWhite s) = skipWhite s :=
  List.dropWhile_idempotent _ _

private theorem skipWhite_cons (hc : isWhite c = false) (s : Text) : skipWhite (c :: s) = c :: s :=
  List.dropWhile_cons_of_neg (by simp [hc])

theorem skipWhite_gap_cons (hgap : IsGap gap) (hc : isWhite c = false) (s : Text) :
    skipWhite (gap ++ c :: s) = c :: s := by
  rw [skipWhite_append hgap, skipWhite_cons hc]

theorem ends_append (hgap : IsGap gap) (hrest : Ends rest) : Ends (gap ++ rest) := by
  cases gap with
  | nil => exact hrest
  | cons d gap =>
    rintro _ ⟨⟩
    exact .inl (hgap d List.mem_cons_self)

theorem ends_comma (rest : Text) : Ends (',' :: rest) := by
  rintro _ ⟨⟩
  exact .inr (.inl rfl)

theorem ends_closing (frame : Frame) (rest : Text) : Ends (frame.closing :: rest) := by
  rintro _ ⟨⟩
  cases frame <;> simp [Frame.closing]

/-! Numbers. -/

private theorem Ends.not_number (h : Ends rest) :
    ∀ d ∈ rest.head?, d.isDigit = false ∧ d ≠ '.' ∧ ¬ (d = 'e' ∨ d = 'E') := by
  intro d hd
  obtain hwhite | rfl | rfl | rfl := h d hd
  · obtain ((rfl | rfl) | rfl) | rfl : ((d = ' ' ∨ d = '\n') ∨ d = '\t') ∨ d = '\r' := by
      simpa [isWhite] using hwhite
    all_goals decide
  all_goals decide

private theorem afterDigits_append (hds : ∀ d ∈ ds, d.isDigit = true) (hrest : ∀ d ∈ rest.head?, d.isDigit = false) :
    afterDigits (ds ++ rest) = rest := by
  rw [afterDigits, List.dropWhile_append_of_pos hds]
  cases rest with
  | nil => rfl
  | cons d rest => exact List.dropWhile_cons_of_neg (by simp [hrest d rfl])

private theorem skipExponent?_append (hpower : IsExponent power) (hrest : Ends rest) :
    skipExponent? (power ++ rest) = .ok rest := by
  have hend := hrest.not_number
  cases hpower with
  | none =>
    cases rest with
    | nil => rfl
    | cons d rest => exact if_neg (hend d rfl).2.2
  | @unsigned e ds he h =>
    obtain ⟨d, ds, rfl, hd⟩ := h.exists_cons
    have hsign : ¬ (d = '+' ∨ d = '-') := by
      rintro (rfl | rfl) <;> cases hd
    have hds := afterDigits_append (fun d' hd' => h.2 d' (List.mem_cons_of_mem _ hd')) fun d' hd' => (hend d' hd').1
    show (if e = 'e' ∨ e = 'E' then skipExponent (d :: (ds ++ rest)) else _) = _
    rw [if_pos he, skipExponent]
    simp only [if_neg hsign, if_pos hd, hds]
  | @signed e s ds he hs h =>
    obtain ⟨d, ds, rfl, hd⟩ := h.exists_cons
    have hds := afterDigits_append (fun d' hd' => h.2 d' (List.mem_cons_of_mem _ hd')) fun d' hd' => (hend d' hd').1
    show (if e = 'e' ∨ e = 'E' then skipExponent (s :: d :: (ds ++ rest)) else _) = _
    rw [if_pos he, skipExponent]
    simp only [if_pos (Lexeme.eq_of_isSign hs), if_pos hd, hds]

private theorem head?_exponent_append (hpower : IsExponent power) (hrest : Ends rest) :
    ∀ d ∈ (power ++ rest).head?, d.isDigit = false ∧ d ≠ '.' := by
  cases hcons : power with
  | nil => exact fun d hd => ⟨(hrest.not_number d hd).1, (hrest.not_number d hd).2.1⟩
  | cons e more =>
    rintro _ ⟨⟩
    exact hpower.head? e (by rw [hcons]; rfl)

private theorem skipFraction?_append (hpart : IsFraction part) (hpower : IsExponent power) (hrest : Ends rest) :
    skipFraction? (part ++ power ++ rest) = .ok rest := by
  have hexponent := skipExponent?_append hpower hrest
  have hhead := head?_exponent_append hpower hrest
  rw [List.append_assoc]
  cases hpart with
  | none =>
    rw [List.nil_append]
    cases htail : power ++ rest with
    | nil =>
      rw [htail] at hexponent
      exact hexponent
    | cons d more =>
      rw [htail] at hexponent hhead
      exact (if_neg (hhead d rfl).2).trans hexponent
  | @digits ds h =>
    obtain ⟨d, ds, rfl, hd⟩ := h.exists_cons
    have hds := afterDigits_append h.2 fun d' hd' => (hhead d' hd').1
    rw [List.cons_append, skipFraction?]
    simp only [if_true, List.cons_append, List.head?_cons, Option.any_some, hd]
    rw [← List.cons_append, hds, hexponent]

private theorem skipNumber_append (hwhole : IsWhole whole) (hpart : IsFraction part) (hpower : IsExponent power)
    (hrest : Ends rest) : skipNumber (whole ++ (part ++ power) ++ rest) = .ok rest := by
  have hfraction := skipFraction?_append hpart hpower hrest
  have hhead := hpart.head?_append (head?_exponent_append hpower hrest)
  rw [← List.append_assoc] at hhead
  rw [List.append_assoc]
  cases hwhole with
  | zero =>
    rw [List.singleton_append, skipNumber, if_pos rfl, if_neg, hfraction]
    cases htail : part ++ power ++ rest with
    | nil => simp
    | cons d more => simp [hhead d (by rw [htail]; rfl)]
  | digits hc hzero hds =>
    rw [List.cons_append, skipNumber, if_neg hzero, if_pos hc, afterDigits_append hds hhead, hfraction]

private theorem IsWhole.exists_cons (h : IsWhole whole) : ∃ c ds, whole = c :: ds ∧ c.isDigit = true := by
  cases h with
  | zero => exact ⟨_, _, rfl, rfl⟩
  | digits hc => exact ⟨_, _, rfl, hc⟩

private theorem IsNumber.exists_cons (h : IsNumber t) : ∃ c w, t = c :: w ∧ (c = '-' ∨ c.isDigit = true) := by
  cases h with
  | natural hwhole =>
    obtain ⟨c, ds, rfl, hc⟩ := hwhole.exists_cons
    exact ⟨c, _, rfl, .inr hc⟩
  | negative => exact ⟨'-', _, rfl, .inl rfl⟩

private theorem ne_of_isDigit {d : Char} (hc : c.isDigit = true) (hd : d.isDigit = false) : c ≠ d := by
  rintro rfl
  rw [hc] at hd
  cases hd

private theorem IsNumber.skipScalar (h : IsNumber t) (hrest : Ends rest) : skipScalar (t ++ rest) = .ok rest := by
  cases h with
  | @natural whole part power hwhole hpart hpower =>
    have hnumber := skipNumber_append hwhole hpart hpower hrest
    obtain ⟨c, ds, rfl, hc⟩ := hwhole.exists_cons
    have hword {d : Char} (hd : d.isDigit = false) : c ≠ d := ne_of_isDigit hc hd
    show Json.skipScalar (c :: (ds ++ (part ++ power) ++ rest)) = _
    rw [Json.skipScalar, if_neg (hword rfl), if_neg (hword rfl), if_neg (hword rfl), if_neg (hword rfl), if_pos hc]
    exact hnumber
  | negative hwhole hpart hpower => exact skipNumber_append hwhole hpart hpower hrest

private theorem IsScalar.skipScalar (h : IsScalar t) (hrest : Ends rest) : skipScalar (t ++ rest) = .ok rest := by
  cases h with
  | null | yes | no => simp [Json.skipScalar, word]
  | number h => exact h.skipScalar hrest
  | string h =>
    rw [List.append_assoc]
    exact h.skipString rest

private theorem IsScalar.exists_cons (h : IsScalar t) :
    ∃ c w, t = c :: w ∧ isWhite c = false ∧ c ∉ ['[', ']', '\x7b', '\x7d'] := by
  cases h with
  | null | yes | no =>
    rw [Text.ofString_eq]
    exact ⟨_, _, rfl, by decide, by decide⟩
  | number h =>
    obtain ⟨c, w, rfl, rfl | hc⟩ := h.exists_cons
    · exact ⟨_, _, rfl, by decide, by decide⟩
    · have hnone : ∀ d ∈ [' ', '\n', '\t', '\r', '[', ']', '\x7b', '\x7d'], d.isDigit = false := by
        simp [Char.isDigit]
      have hne := fun d hd => ne_of_isDigit hc (hnone d hd)
      simp only [List.forall_mem_cons] at hne
      exact ⟨c, w, rfl, by simp [isWhite, hne], by simp [hne]⟩
  | string => exact ⟨_, _, rfl, by decide, by decide⟩

/-! What follows a value. -/

private theorem skipFrom_value (frames : List Frame) (s : Text) : skipFrom .value frames s =
    match skipWhite s with
    | [] => .error (faultBefore .endInValue [])
    | c :: rest =>
      if c = '[' ∨ c = '\x7b' then
        let frame := if c = '[' then Frame.list else Frame.object
        match skipWhite rest with
        | [] => .error (faultBefore frame.endProblem [])
        | d :: rest' =>
          if d = frame.closing then skipFrom .behind frames rest'
          else skipFrom frame.item (frame :: frames) (d :: rest')
      else
        match skipScalar (c :: rest) with
        | .error fault => .error fault
        | .ok rest' => skipFrom .behind frames rest' := by
  rw [skipFrom]
  dsimp only
  cases skipWhite s with
  | nil => rfl
  | cons c rest =>
    dsimp only
    congr 1
    · cases skipWhite rest <;> rfl
    · cases skipScalar (c :: rest) <;> rfl

private theorem skipFrom_key (frames : List Frame) (s : Text) : skipFrom .key frames s =
    match skipWhite s with
    | [] => .error (faultBefore .endInObject [])
    | c :: rest =>
      if c = '"' then
        match skipString rest with
        | .error fault => .error fault
        | .ok rest' =>
          match skipWhite rest' with
          | [] => .error (faultBefore .endInObject [])
          | d :: rest'' =>
            if d = ':' then skipFrom .value frames rest'' else .error (faultBehind .noColon (d :: rest''))
      else .error (faultBehind .keyNotString (c :: rest)) := by
  rw [skipFrom]
  dsimp only
  cases skipWhite s with
  | nil => rfl
  | cons c rest =>
    dsimp only
    congr 1
    cases skipString rest with
    | error => rfl
    | ok rest' =>
      dsimp only
      cases skipWhite rest' <;> rfl

private theorem skipFrom_behind (frame : Frame) (frames : List Frame) (s : Text) :
    skipFrom .behind (frame :: frames) s =
      match skipWhite s with
      | [] => .error (faultBefore frame.endProblem [])
      | c :: rest =>
        if c = ',' then skipFrom frame.item (frame :: frames) rest
        else if c = frame.closing then skipFrom .behind frames rest
        else .error (faultBehind frame.separatorProblem (c :: rest)) := by
  rw [skipFrom]
  dsimp only
  cases skipWhite s <;> rfl

/-- White space makes no difference where an item, a mark or an end comes next. -/
private theorem skipFrom_congr {place : Skipping} (hplace : place = .behind → frames ≠ []) {s' : Text}
    (h : skipWhite s = skipWhite s') : skipFrom place frames s = skipFrom place frames s' := by
  cases place with
  | value => rw [skipFrom_value, skipFrom_value, h]
  | key => rw [skipFrom_key, skipFrom_key, h]
  | behind =>
    obtain ⟨frame, frames, rfl⟩ := List.exists_cons_of_ne_nil (hplace rfl)
    rw [skipFrom_behind, skipFrom_behind, h]

private theorem skipFrom_gap {place : Skipping} (hplace : place = .behind → frames ≠ []) (hgap : IsGap gap)
    (s : Text) : skipFrom place frames (gap ++ s) = skipFrom place frames s :=
  skipFrom_congr hplace (skipWhite_append hgap s)

private theorem skipFrom_scalar (hc : isWhite c = false) (hopen : ¬ (c = '[' ∨ c = '\x7b'))
    (h : skipScalar (c :: s) = .ok rest) (frames : List Frame) :
    skipFrom .value frames (c :: s) = skipFrom .behind frames rest := by
  rw [skipFrom_value, skipWhite_cons hc]
  simp only [if_neg hopen, h]

private theorem skipFrom_frame (hs : skipWhite s = c :: rest) (frame : Frame) (frames : List Frame) :
    skipFrom .value frames (frame.opening :: s) =
      if c = frame.closing then skipFrom .behind frames rest
      else skipFrom frame.item (frame :: frames) (c :: rest) := by
  rw [skipFrom_value]
  cases frame <;> simp [Frame.opening, skipWhite_cons, isWhite, hs]

private theorem skipFrom_comma (frame : Frame) (frames : List Frame) (s : Text) :
    skipFrom .behind (frame :: frames) (',' :: s) = skipFrom frame.item (frame :: frames) s :=
  skipFrom_behind frame frames (',' :: s)

private theorem skipFrom_closing (frame : Frame) (frames : List Frame) (s : Text) :
    skipFrom .behind (frame :: frames) (frame.closing :: s) = skipFrom .behind frames s := by
  rw [skipFrom_behind]
  cases frame <;> rfl

/-- How skipping goes on behind a part of JSON text. -/
def Skips : Part → Text → Prop
  | .value, t => ∀ frames rest, Ends rest → skipFrom .value frames (t ++ rest) = skipFrom .behind frames rest
  | .item frame, t => ∀ frames rest, Ends rest →
      skipFrom frame.item (frame :: frames) (t ++ rest) = skipFrom .behind (frame :: frames) rest
  | .row frame, t => ∀ frames rest, skipFrom frame.item (frame :: frames) (t ++ frame.closing :: rest) =
      skipFrom .behind frames rest

/-- The first character that is no white space closes nothing. -/
def Starts (t : Text) : Prop := ∃ c w, skipWhite t = c :: w ∧ ∀ frame : Frame, c ≠ frame.closing

private theorem starts_cons (hc : isWhite c = false) (hclosing : c ≠ ']' ∧ c ≠ '\x7d') (t : Text) : Starts (c :: t) :=
  ⟨c, t, skipWhite_cons hc t, fun frame => by cases frame <;> simp [Frame.closing, hclosing]⟩

private theorem starts_opening (frame : Frame) (t : Text) : Starts (frame.opening :: t) := by
  cases frame <;> exact starts_cons (by decide) (by decide) t

private theorem Starts.gap_append (h : Starts t) (hgap : IsGap gap) : Starts (gap ++ t) := by
  obtain ⟨c, w, hskip, hc⟩ := h
  exact ⟨c, w, by rw [skipWhite_append hgap, hskip], hc⟩

private theorem Starts.append (h : Starts t) (s : Text) : Starts (t ++ s) := by
  obtain ⟨c, w, hskip, hc⟩ := h
  refine ⟨c, w ++ s, ?_, hc⟩
  rw [skipWhite, List.dropWhile_append]
  rw [skipWhite] at hskip
  simp [hskip]

private theorem IsJson.starts {part : Part} (h : IsJson part t) : Starts t := by
  induction h with
  | scalar h =>
    obtain ⟨c, w, rfl, hc, hmarks⟩ := h.exists_cons
    simp only [List.mem_cons, List.not_mem_nil, or_false, not_or] at hmarks
    exact starts_cons hc ⟨hmarks.2.1, hmarks.2.2.2⟩ w
  | empty frame | @filled _ frame => exact starts_opening frame _
  | element hbefore _ _ ih => exact (ih.gap_append hbefore).append _
  | @member before name gap gap' t behind hbefore =>
    have hquote : Starts ('"' :: (name ++ '"' :: gap ++ ':' :: gap' ++ t ++ behind)) :=
      starts_cons (by decide) (by decide) _
    simpa using hquote.gap_append hbefore
  | last _ ih => exact ih
  | more _ _ ih => exact ih.append _

private theorem IsJson.skips {part : Part} (h : IsJson part t) : Skips part t := by
  induction h with
  | scalar h =>
    intro frames rest hrest
    have hskip := h.skipScalar hrest
    obtain ⟨c, w, rfl, hc, hmarks⟩ := h.exists_cons
    exact skipFrom_scalar hc (by simp_all) hskip frames
  | @empty gap frame hgap =>
    intro frames rest _
    have hclosing : isWhite frame.closing = false := by cases frame <;> rfl
    have hall := skipFrom_frame (skipWhite_gap_cons hgap hclosing rest) frame frames
    rw [if_pos rfl] at hall
    simpa using hall
  | @filled t frame h ih =>
    intro frames rest _
    obtain ⟨c, w, hskip, hc⟩ := h.starts.append (frame.closing :: rest)
    have hidem : skipWhite (c :: w) = skipWhite (t ++ frame.closing :: rest) := by
      rw [← hskip, skipWhite_skipWhite]
    have hall := skipFrom_frame hskip frame frames
    rw [if_neg (hc frame), skipFrom_congr (by cases frame <;> simp [Frame.item]) hidem, ih] at hall
    simpa using hall
  | element hbefore _ hbehind ih =>
    intro frames rest hrest
    rw [List.append_assoc, List.append_assoc, Frame.item, skipFrom_gap (by simp) hbefore,
      ih _ _ (ends_append hbehind hrest), skipFrom_gap (by simp) hbehind]
  | @member before name gap gap' t behind hbefore hname hgap hgap' _ hbehind ih =>
    intro frames rest hrest
    have hkey : skipFrom .key (.object :: frames)
        ('"' :: (name ++ '"' :: (gap ++ ':' :: (gap' ++ (t ++ (behind ++ rest)))))) =
          skipFrom .value (.object :: frames) (gap' ++ (t ++ (behind ++ rest))) := by
      rw [skipFrom_key, skipWhite_cons (by decide)]
      have hcolon : isWhite ':' = false := by decide
      simp only [if_true, hname.skipString, skipWhite_gap_cons hgap hcolon]
    have hall : skipFrom .key (.object :: frames)
        (before ++ '"' :: (name ++ '"' :: (gap ++ ':' :: (gap' ++ (t ++ (behind ++ rest)))))) =
          skipFrom .behind (.object :: frames) rest := by
      rw [skipFrom_gap (by simp) hbefore, hkey, skipFrom_gap (by simp) hgap', ih _ _ (ends_append hbehind hrest),
        skipFrom_gap (by simp) hbehind]
    simpa [Frame.item] using hall
  | last _ ih =>
    intro frames rest
    rw [ih frames _ (ends_closing _ rest), skipFrom_closing]
  | more _ _ ih ihmore =>
    intro frames rest
    rw [List.append_assoc, List.cons_append, ih frames _ (ends_comma _), skipFrom_comma, ihmore]

theorem IsJson.skip (h : IsJson .value t) (hgap : IsGap gap) (hrest : Ends rest) :
    skip (gap ++ (t ++ rest)) = .ok rest := by
  rw [Json.skip, skipFrom_gap (by simp) hgap, h.skips [] rest hrest, skipFrom]

end
end SqfLayout.Json
