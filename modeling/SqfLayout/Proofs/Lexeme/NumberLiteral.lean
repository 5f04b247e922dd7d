import SqfLayout.Proofs.Lexeme.Context
import SqfLayout.Proofs.Text.Joined

/-! The grammar of number literals. A literal that stands alone is read as one number, and a minus sign in
front of it is a lexeme of its own. Elsewhere digits, fraction and exponent are read one behind the other and
never given back; still what is read is the longest literal that starts there, unless `0x` has no digit behind
it. -/
namespace SqfLayout.Lexeme
open Text (takeWhile_append_of_head?)

/-- Digits of a base, at least one. -/
def IsDigits (p : Char → Bool) (t : Text) : Prop := t ≠ [] ∧ ∀ d ∈ t, p d = true

/-- A fraction, or none. -/
inductive IsFraction : Text → Prop
  | none : IsFraction []
  | digits {ds : Text} (h : IsDigits Char.isDigit ds) : IsFraction ('.' :: ds)

/-- An exponent, or none. -/
inductive IsExponent : Text → Prop
  | none : IsExponent []
  | unsigned {e : Char} {ds : Text} (he : e = 'e' ∨ e = 'E') (h : IsDigits Char.isDigit ds) :
      IsExponent (e :: ds)
  | signed {e s : Char} {ds : Text} (he : e = 'e' ∨ e = 'E') (hs : isSign s = true)
      (h : IsDigits Char.isDigit ds) : IsExponent (e :: s :: ds)

/-- The number literals. A decimal one has digits in front of its point or behind it. -/
inductive IsNumber : Text → Prop
  | dollar {ds : Text} (h : IsDigits Text.isHexDigit ds) : IsNumber ('$' :: ds)
  | hex {x : Char} {ds : Text} (hx : x = 'x' ∨ x = 'X') (h : IsDigits Text.isHexDigit ds) :
      IsNumber ('0' :: x :: ds)
  | decimal {whole part power : Text} (hwhole : ∀ d ∈ whole, d.isDigit = true) (hpart : IsFraction part)
      (hpower : IsExponent power) (hne : whole ++ part ≠ []) : IsNumber (whole ++ part ++ power)

/-- The longest beginning of a text that has a property. -/
structure LongestBeginning (P : Text → Prop) (a t : Text) : Prop where
  holds : P a
  isPrefix : a <+: t
  longest : ∀ b, P b → b <+: t → b <+: a

/-- A text that starts with the mark of a hexadecimal literal, but with no digit behind the mark. -/
def StartsBareMark (t : Text) : Prop :=
  ∃ x more, (x = 'x' ∨ x = 'X') ∧ t = '0' :: x :: more ∧ ∀ d ∈ more.head?, Text.isHexDigit d = false

section
variable {whole part power text ds t more : Text} {c : Char} {p : Char → Bool}

theorem IsDigits.exists_cons (h : IsDigits p ds) : ∃ d rest, ds = d :: rest ∧ p d = true := by
  obtain ⟨d, rest, rfl⟩ := List.exists_cons_of_ne_nil h.1
  exact ⟨d, rest, rfl, h.2 d List.mem_cons_self⟩

private theorem IsDigits.takeWhile_eq (h : IsDigits p ds) : ds.takeWhile p = ds := by
  simpa using @takeWhile_append_of_head? _ ds [] p h.2 (by simp)

theorem eq_of_isSign (hc : isSign c = true) : c = '+' ∨ c = '-' := by simpa [isSign] using hc

theorem IsExponent.head? (h : IsExponent power) : ∀ d ∈ power.head?, d.isDigit = false ∧ d ≠ '.' := by
  cases h with
  | none => simp
  | unsigned he | signed he =>
    rintro _ ⟨⟩
    obtain rfl | rfl := he <;> decide

private theorem IsExponent.exponent_eq (h : IsExponent power) : exponent power = power := by
  cases h with
  | none => rfl
  | @unsigned e ds he h =>
    obtain ⟨d, rest, rfl, hd⟩ := h.exists_cons
    rw [exponent, if_pos he, if_pos hd, h.takeWhile_eq]
  | @signed e s ds he hs h =>
    obtain ⟨d, rest, rfl, hd⟩ := h.exists_cons
    have hsign : s.isDigit = false := by
      obtain rfl | rfl := eq_of_isSign hs <;> rfl
    rw [exponent, if_pos he, if_neg (by simp [hsign]), if_pos (by simp [hs, hd]), h.takeWhile_eq]

private theorem IsFraction.fraction_append (h : IsFraction part)
    (hmore : ∀ d ∈ more.head?, d.isDigit = false ∧ d ≠ '.') : fraction (part ++ more) = part := by
  cases h with
  | none =>
    match more with
    | [] | [_] => rfl
    | e :: d :: more => exact if_neg fun h => (hmore e rfl).2 h.1
  | @digits ds h =>
    obtain ⟨d, rest, rfl, hd⟩ := h.exists_cons
    have htaken := takeWhile_append_of_head? h.2 fun e he => (hmore e he).1
    rw [List.cons_append, List.cons_append, fraction, if_pos ⟨rfl, hd⟩, ← List.cons_append, htaken]

theorem IsFraction.head?_append (h : IsFraction part) (hmore : ∀ d ∈ more.head?, d.isDigit = false ∧ d ≠ '.') :
    ∀ d ∈ (part ++ more).head?, d.isDigit = false := by
  cases h with
  | none => exact fun d hd => (hmore d hd).1
  | digits =>
    rintro _ ⟨⟩
    rfl

private theorem decimal_append_of_head? {rest : Text} (hwhole : ∀ d ∈ whole, d.isDigit = true)
    (hrest : ∀ d ∈ rest.head?, d.isDigit = false) : decimal (whole ++ rest) =
      whole ++ fraction rest ++ exponent (rest.drop (fraction rest).length) := by
  have htaken := takeWhile_append_of_head? hwhole hrest
  unfold decimal
  simp only [htaken, List.drop_left]

private theorem decimal_eq_self (hwhole : ∀ d ∈ whole, d.isDigit = true) (hpart : IsFraction part)
    (hpower : IsExponent power) : decimal (whole ++ part ++ power) = whole ++ part ++ power := by
  have hrest := decimal_append_of_head? hwhole (hpart.head?_append hpower.head?)
  rw [List.append_assoc, hrest, hpart.fraction_append hpower.head?, List.drop_left, hpower.exponent_eq,
    List.append_assoc]

/-- The characters that tell a hexadecimal literal. -/
def hexMarks : List Char := ['$', 'x', 'X']

private theorem not_mem_hexMarks_of_isDigit {d : Char} (hd : d.isDigit = true) : d ∉ hexMarks := by
  intro hmem
  simp only [hexMarks, List.mem_cons, List.not_mem_nil, or_false] at hmem
  obtain rfl | rfl | rfl := hmem <;> cases hd

private theorem not_mem_hexMarks (hwhole : ∀ d ∈ whole, d.isDigit = true) (hpart : IsFraction part)
    (hpower : IsExponent power) : ∀ d ∈ whole ++ part ++ power, d ∉ hexMarks := by
  have hdigits {ds : Text} (h : IsDigits Char.isDigit ds) : ∀ d ∈ ds, d ∉ hexMarks :=
    fun d hd => not_mem_hexMarks_of_isDigit (h.2 d hd)
  have hletter {e : Char} (he : e = 'e' ∨ e = 'E') : e ∉ hexMarks := by
    obtain rfl | rfl := he <;> decide
  have hwhole' : ∀ d ∈ whole, d ∉ hexMarks := fun d hd => not_mem_hexMarks_of_isDigit (hwhole d hd)
  refine List.forall_mem_append.2 ⟨List.forall_mem_append.2 ⟨hwhole', ?_⟩, ?_⟩
  · cases hpart with
    | none => simp
    | digits h => exact List.forall_mem_cons.2 ⟨by decide, hdigits h⟩
  · cases hpower with
    | none => simp
    | unsigned he h => exact List.forall_mem_cons.2 ⟨hletter he, hdigits h⟩
    | @signed e s _ he hs h =>
      have hsign : s ∉ hexMarks := by
        obtain rfl | rfl := eq_of_isSign hs <;> decide
      exact List.forall_mem_cons.2 ⟨hletter he, List.forall_mem_cons.2 ⟨hsign, hdigits h⟩⟩

private theorem number_eq_decimal (h : ∀ d ∈ text, d ∉ hexMarks) (hne : text ≠ []) : number text = decimal text := by
  obtain ⟨c, rest, rfl⟩ := List.exists_cons_of_ne_nil hne
  have hc : c ≠ '$' := by
    rintro rfl
    exact h _ List.mem_cons_self (by decide)
  cases rest with
  | nil => rw [number, if_neg hc]
  | cons x rest =>
    have hx : ¬ (x = 'x' ∨ x = 'X') := by
      have hmark : x ∉ hexMarks := h x (by simp)
      rintro (rfl | rfl) <;> exact hmark (by decide)
    rw [number, if_neg hc]
    exact if_neg fun hmark => hx hmark.2

private theorem IsNumber.number_eq (h : IsNumber text) : number text = text := by
  cases h with
  | dollar h => simp [number, h.takeWhile_eq]
  | hex hx h => simp [number, hx, h.takeWhile_eq]
  | decimal hwhole hpart hpower hne =>
    have hmarks := not_mem_hexMarks hwhole hpart hpower
    rw [number_eq_decimal hmarks (by simp_all), decimal_eq_self hwhole hpart hpower]

theorem IsNumber.exists_cons (h : IsNumber text) : ∃ c rest, text = c :: rest ∧ startsNumber c rest = true := by
  cases h with
  | dollar h =>
    obtain ⟨d, rest, rfl, hd⟩ := h.exists_cons
    exact ⟨_, _, rfl, by simp [startsNumber, hd]⟩
  | hex => exact ⟨_, _, rfl, rfl⟩
  | @decimal whole _ power hwhole hpart _ hne =>
    cases whole with
    | cons c whole => exact ⟨_, _, rfl, by simp [startsNumber, hwhole c List.mem_cons_self]⟩
    | nil =>
      cases hpart with
      | none => exact absurd rfl hne
      | digits h =>
        obtain ⟨d, rest, rfl, hd⟩ := h.exists_cons
        exact ⟨_, _, rfl, by simp [startsNumber, hd]⟩

theorem first_of_startsNumber (h : startsNumber c more = true) : c.isDigit = true ∨ c = '.' ∨ c = '$' := by
  simp only [startsNumber, Bool.or_eq_true, Bool.and_eq_true, beq_iff_eq] at h
  obtain (h | h) | h := h
  · exact .inl h
  · exact .inr (.inl h.1)
  · exact .inr (.inr h.1)

theorem read_number {lineStart : Bool} {rest : Text} (h : startsNumber c rest = true) :
    read lineStart c rest = .ok (.plain .number (number (c :: rest))) := by
  have hfirst := first_of_startsNumber h
  have hne : ∀ d ∈ ['\n', '\r', ' ', '\t', '#', '/', '"', '\''], c ≠ d := by
    rintro d hd rfl
    simp only [List.mem_cons, List.not_mem_nil, or_false] at hd
    rcases hd with rfl | rfl | rfl | rfl | rfl | rfl | rfl | rfl <;> simp at hfirst
  simp only [List.forall_mem_cons] at hne
  unfold read
  simp [Text.isBreak, Text.isBlank, hne, h]

theorem IsNumber.isOne (h : IsNumber text) : IsOne .number text := by
  obtain ⟨c, rest, rfl, hstarts⟩ := h.exists_cons
  exact ⟨c, rest, rfl, by rw [read_number hstarts, h.number_eq]⟩

theorem read_minus {lineStart : Bool} (rest : Text) :
    read lineStart '-' rest = .ok (.plain .operator ['-']) := by
  have hletter : Text.isLetter '-' = false := by decide
  have hoperator : operator '-' rest = ['-'] := by
    cases rest with
    | nil => rfl
    | cons d rest => simp [operator, operatorPairs]
  simp [read, Text.isBreak, Text.isBlank, startsNumber, hletter, mark?, operatorCharacters, hoperator]

private theorem isDigits_cons_takeWhile (hc : p c = true) : IsDigits p ((c :: t).takeWhile p) :=
  ⟨by simp [hc], List.all_eq_true.1 List.all_takeWhile⟩

private theorem isDigits_takeWhile (h : t.head?.any p = true) : IsDigits p (t.takeWhile p) := by
  cases t with
  | nil => cases h
  | cons d t => exact isDigits_cons_takeWhile (by simpa using h)

private theorem isFraction_fraction (t : Text) : IsFraction (fraction t) := by
  unfold fraction
  split
  · split
    · rename_i h
      rw [h.1]
      exact .digits (isDigits_cons_takeWhile h.2)
    · exact .none
  · exact .none

private theorem isExponent_exponent (t : Text) : IsExponent (exponent t) := by
  unfold exponent
  split
  · split
    · rename_i he
      split
      · rename_i hc
        exact .unsigned he (isDigits_cons_takeWhile hc)
      · split
        · rename_i h
          obtain ⟨hsign, hdigits⟩ := Bool.and_eq_true_iff.1 h
          exact .signed he hsign (isDigits_takeWhile hdigits)
        · exact .none
    · exact .none
  · exact .none

private theorem isNumber_decimal (h : startsNumber c t = true) (hc : c ≠ '$') : IsNumber (decimal (c :: t)) := by
  refine .decimal (List.all_eq_true.1 List.all_takeWhile) (isFraction_fraction _) (isExponent_exponent _) ?_
  by_cases hdigit : c.isDigit = true
  · simp [hdigit]
  · have hpoint : c = '.' ∧ t.head?.any Char.isDigit = true := by
      simpa [startsNumber, hdigit, hc] using h
    cases t with
    | nil => simp at hpoint
    | cons d t =>
      have hd : d.isDigit = true := by simpa using hpoint.2
      simp [fraction, hpoint.1, hd]

theorem number_of_mark {x : Char} (hx : x = 'x' ∨ x = 'X') (t : Text) :
    number ('0' :: x :: t) = '0' :: x :: t.takeWhile Text.isHexDigit := by
  simp [number, hx]

private theorem number_of_not_mark (hc : c ≠ '$') (h : ∀ x more, x = 'x' ∨ x = 'X' → c :: t ≠ '0' :: x :: more) :
    number (c :: t) = decimal (c :: t) := by
  cases t with
  | nil => simp [number, hc]
  | cons x t =>
    have hmark : ¬ (c = '0' ∧ (x = 'x' ∨ x = 'X')) := fun hmark => h x t hmark.2 (by rw [hmark.1])
    simp [number, hc, hmark]

private theorem isNumber_number (h : startsNumber c t = true) (hbare : ¬ StartsBareMark (c :: t)) :
    IsNumber (number (c :: t)) := by
  by_cases hc : c = '$'
  · subst hc
    have hdigits : t.head?.any Text.isHexDigit = true := by simpa [startsNumber] using h
    simpa [number] using IsNumber.dollar (isDigits_takeWhile hdigits)
  by_cases hmark : ∃ x more, (x = 'x' ∨ x = 'X') ∧ c :: t = '0' :: x :: more
  · obtain ⟨x, more, hx, heq⟩ := hmark
    have hdigits : more.head?.any Text.isHexDigit = true := by
      by_contra hno
      refine hbare ⟨x, more, hx, heq, fun d hd => ?_⟩
      simpa [Option.mem_def.1 hd] using hno
    rw [heq, number_of_mark hx]
    exact .hex hx (isDigits_takeWhile hdigits)
  · rw [number_of_not_mark hc fun x more hx heq => hmark ⟨x, more, hx, heq⟩]
    exact isNumber_decimal h hc

private theorem isPrefix_takeWhile (h : ∀ d ∈ ds, p d = true) (more : Text) : ds <+: (ds ++ more).takeWhile p := by
  rw [List.takeWhile_append_of_pos h]
  exact List.prefix_append _ _

private theorem IsExponent.isPrefix (h : IsExponent power) (more : Text) : power <+: exponent (power ++ more) := by
  cases h with
  | none => exact List.nil_prefix
  | @unsigned e ds he h =>
    obtain ⟨d, rest, rfl, hd⟩ := h.exists_cons
    rw [List.cons_append, List.cons_append, exponent, if_pos he, if_pos hd, ← List.cons_append]
    exact (List.prefix_cons_inj e).2 (isPrefix_takeWhile h.2 more)
  | @signed e s ds he hs h =>
    obtain ⟨d, rest, rfl, hd⟩ := h.exists_cons
    have hsign : s.isDigit = false := by
      obtain rfl | rfl := eq_of_isSign hs <;> rfl
    rw [List.cons_append, List.cons_append, exponent, if_pos he, if_neg (by simp [hsign]),
      if_pos (by simp [hs, hd])]
    exact (List.prefix_cons_inj e).2 ((List.prefix_cons_inj s).2 (isPrefix_takeWhile h.2 more))

private theorem IsFraction.isPrefix (h : IsFraction part) (more : Text) : part <+: fraction (part ++ more) := by
  cases h with
  | none => exact List.nil_prefix
  | @digits ds h =>
    obtain ⟨d, rest, rfl, hd⟩ := h.exists_cons
    rw [List.cons_append, List.cons_append, fraction, if_pos ⟨rfl, hd⟩, ← List.cons_append]
    exact (List.prefix_cons_inj '.').2 (isPrefix_takeWhile h.2 more)

private theorem isPrefix_decimal (hwhole : ∀ d ∈ whole, d.isDigit = true) (hpart : IsFraction part)
    (hpower : IsExponent power) (more : Text) :
    whole ++ part ++ power <+: decimal (whole ++ part ++ power ++ more) := by
  by_cases hpower' : power = []
  · subst hpower'
    cases hpart with
    | none =>
      have hdigits := isPrefix_takeWhile hwhole more
      simpa [decimal] using hdigits.trans (List.prefix_append _ _)
    | @digits ds h =>
      have hrest : decimal (whole ++ ('.' :: ds ++ more)) = _ :=
        decimal_append_of_head? hwhole (by rintro _ ⟨⟩; rfl)
      have hfraction := (IsFraction.digits h).isPrefix more
      rw [List.append_nil, List.append_assoc, hrest, List.append_assoc]
      exact (List.prefix_append_right_inj whole).2 (hfraction.trans (List.prefix_append _ _))
  · have hhead : ∀ d ∈ (power ++ more).head?, d.isDigit = false ∧ d ≠ '.' := by
      obtain ⟨e, power, rfl⟩ := List.exists_cons_of_ne_nil hpower'
      exact hpower.head?
    have hfraction := hpart.fraction_append hhead
    have hrest := decimal_append_of_head? hwhole (hpart.head?_append hhead)
    rw [List.append_assoc, List.append_assoc, List.append_assoc, hrest, hfraction, List.drop_left,
      List.append_assoc]
    exact (List.prefix_append_right_inj whole).2 ((List.prefix_append_right_inj part).2 (hpower.isPrefix more))

private theorem IsNumber.isPrefix_number {b : Text} (h : IsNumber b) (more : Text) : b <+: number (b ++ more) := by
  cases h with
  | dollar h =>
    simpa [number] using isPrefix_takeWhile h.2 more
  | hex hx h =>
    simpa [number_of_mark hx] using isPrefix_takeWhile h.2 more
  | @decimal whole part power hwhole hpart hpower hne =>
    have hmarks := not_mem_hexMarks hwhole hpart hpower
    have hlonger := isPrefix_decimal hwhole hpart hpower more
    obtain ⟨c, rest, hcons⟩ := List.exists_cons_of_ne_nil (by simp_all : whole ++ part ++ power ≠ [])
    rw [hcons] at hmarks hlonger ⊢
    have hc : c ≠ '$' := by
      rintro rfl
      exact hmarks _ List.mem_cons_self (by decide)
    by_cases hmark : ∃ x u, (x = 'x' ∨ x = 'X') ∧ c :: rest ++ more = '0' :: x :: u
    · obtain ⟨x, u, hx, heq⟩ := hmark
      obtain ⟨rfl, hu⟩ := List.cons.inj heq
      rw [heq, number_of_mark hx]
      cases rest with
      | nil => simp
      | cons d rest =>
        obtain ⟨rfl, -⟩ := List.cons.inj hu
        have hd : d ∉ hexMarks := hmarks d (by simp)
        obtain rfl | rfl := hx <;> exact absurd (by decide) hd
    · have hdecimal := number_of_not_mark (t := rest ++ more) hc fun x u hx heq => hmark ⟨x, u, hx, heq⟩
      rw [List.cons_append, hdecimal]
      exact hlonger

theorem not_isNumber_mark {x : Char} (hx : x = 'x' ∨ x = 'X') : ¬ IsNumber ['0', x] := by
  generalize hb : ['0', x] = b
  intro h
  cases h with
  | dollar => cases hb
  | hex _ h =>
    obtain ⟨rfl, rfl⟩ : x = _ ∧ _ = [] := by simpa using hb
    exact h.1 rfl
  | decimal hwhole hpart hpower =>
    have hx' : x ∉ hexMarks := not_mem_hexMarks hwhole hpart hpower x (hb ▸ by simp)
    obtain rfl | rfl := hx <;> exact hx' (by decide)

theorem StartsBareMark.number_eq (h : StartsBareMark t) :
    number t = t.take 2 ∧ ¬ IsNumber (t.take 2) := by
  obtain ⟨x, more, hx, rfl, hmore⟩ := h
  have htaken : more.takeWhile Text.isHexDigit = [] := by
    simpa using @takeWhile_append_of_head? _ [] more Text.isHexDigit (by simp) hmore
  exact ⟨by simp [number_of_mark hx, htaken], not_isNumber_mark hx⟩

/-- What is read is the longest literal, unless it is a bare mark. -/
theorem longest_number_iff (h : startsNumber c t = true) :
    LongestBeginning IsNumber (number (c :: t)) (c :: t) ↔ ¬ StartsBareMark (c :: t) := by
  constructor
  · rintro ⟨hnumber, -, -⟩ hbare
    obtain ⟨heq, hno⟩ := hbare.number_eq
    exact hno (heq ▸ hnumber)
  · intro hbare
    refine ⟨isNumber_number h hbare, number_isPrefix _, ?_⟩
    rintro b hb ⟨more, heq⟩
    exact heq ▸ hb.isPrefix_number more

end

end SqfLayout.Lexeme
