import Mathlib.Data.List.Basic
import SqfLayout.Json

/-! How strings are written in JSON text. A character stands for itself or is escaped, some in more than one
way; reading takes every way back. -/
namespace SqfLayout.Json

/-- A hexadecimal digit, in either case, and its value. -/
def IsHexDigit (c : Char) (n : Nat) : Prop := n < 16 ∧ (c = n.digitChar ∨ c = n.digitChar.toUpper)

/-- Four hexadecimal digits, and their value. -/
inductive IsHex : Text → Nat → Prop
  | digits {a b c d : Char} {i j k l : Nat} (ha : IsHexDigit a i) (hb : IsHexDigit b j) (hc : IsHexDigit c k)
      (hd : IsHexDigit d l) : IsHex [a, b, c, d] (((i * 16 + j) * 16 + k) * 16 + l)

def shortEscapes : List (Char × Char) :=
  [('"', '"'), ('\\', '\\'), ('/', '/'), ('b', '\x08'), ('f', '\x0c'), ('n', '\n'), ('r', '\r'), ('t', '\t')]

/-- A character that may stand for itself. -/
structure IsPlain (c : Char) : Prop where
  quote : c ≠ '"'
  slash : c ≠ '\\'
  control : 0x20 ≤ c.toNat

/-- The ways to write a character. -/
inductive Spells : Text → Char → Prop
  | plain {c : Char} (hc : IsPlain c) : Spells [c] c
  | short {e c : Char} (he : (e, c) ∈ shortEscapes) : Spells ['\\', e] c
  | numeric {digits : Text} {c : Char} (hdigits : IsHex digits c.toNat) : Spells ('\\' :: 'u' :: digits) c
  /-- Two halves, for a character beyond the range of four digits. -/
  | pair {digits digits' : Text} {first second : Nat} {c : Char} (hfirst : IsHex digits first)
      (hsecond : IsHex digits' second) (hhigh : 0xD800 ≤ first ∧ first ≤ 0xDBFF)
      (hlow : 0xDC00 ≤ second ∧ second ≤ 0xDFFF)
      (hc : c.toNat = (first - 0xD800) * 0x400 + (second - 0xDC00) + 0x10000) :
      Spells ('\\' :: 'u' :: digits ++ '\\' :: 'u' :: digits') c

/-- The text between the quotes of a string. -/
inductive SpellsAll : Text → Text → Prop
  | nil : SpellsAll [] []
  | cons {w t s : Text} {c : Char} (hw : Spells w c) (h : SpellsAll t s) : SpellsAll (w ++ t) (c :: s)

/-- A string in its quotes. -/
inductive IsString : Text → Text → Prop
  | quoted {t s : Text} (h : SpellsAll t s) : IsString ('"' :: t ++ ['"']) s

/-- The text between the quotes of a string that nobody asks for: its escapes need not make characters. -/
inductive IsRaw : Text → Prop
  | nil : IsRaw []
  | plain {c : Char} {t : Text} (hc : IsPlain c) (h : IsRaw t) : IsRaw (c :: t)
  | short {e c : Char} {t : Text} (he : (e, c) ∈ shortEscapes) (h : IsRaw t) : IsRaw ('\\' :: e :: t)
  | numeric {digits t : Text} {n : Nat} (hdigits : IsHex digits n) (h : IsRaw t) :
      IsRaw ('\\' :: 'u' :: digits ++ t)

section
variable {c e : Char} {n : Nat} {t s w rest digits : Text}

private theorem IsHexDigit.hexValue? (h : IsHexDigit c n) : hexValue? c = some n := by
  obtain ⟨hn, hc⟩ := h
  have hall : ∀ n < 16, Json.hexValue? n.digitChar = some n ∧ Json.hexValue? n.digitChar.toUpper = some n := by decide
  obtain rfl | rfl := hc
  · exact (hall n hn).1
  · exact (hall n hn).2

private theorem le_byteCount (t : Text) : t.length ≤ byteCount t := by
  induction t with
  | nil => exact Nat.le_refl _
  | cons c t ih =>
    have hpos := c.utf8Size_pos
    show t.length + 1 ≤ c.utf8Size + byteCount t
    omega

private theorem IsHex.hex4 (h : IsHex digits n) (rest : Text) : hex4 (digits ++ rest) = .ok (n, rest) := by
  cases h with
  | @digits a b c d i j k l ha hb hc hd =>
    have hbytes : ¬ byteCount (a :: b :: c :: d :: rest) < 4 := by
      have hle := le_byteCount (a :: b :: c :: d :: rest)
      simp only [List.length_cons] at hle
      omega
    show Json.hex4 (a :: b :: c :: d :: rest) = _
    rw [Json.hex4, if_neg hbytes]
    simp only [ha.hexValue?, hb.hexValue?, hc.hexValue?, hd.hexValue?]

private theorem shortEscape?_of_mem (h : (e, c) ∈ shortEscapes) : shortEscape? e = some c ∧ e ≠ 'u' := by
  have hall : ∀ p ∈ shortEscapes, shortEscape? p.1 = some p.2 ∧ p.1 ≠ 'u' := by decide
  exact hall _ h

private theorem not_surrogate (c : Char) : ¬ (0xD800 ≤ c.toNat ∧ c.toNat ≤ 0xDFFF) := by
  have hvalid := c.valid
  simp only [UInt32.isValidChar, Nat.isValidChar] at hvalid
  show ¬ (0xD800 ≤ c.val.toNat ∧ c.val.toNat ≤ 0xDFFF)
  omega

private theorem escape_of_short (h : (e, c) ∈ shortEscapes) (rest : Text) : escape (e :: rest) = .ok (c, rest) := by
  obtain ⟨hshort, hne⟩ := shortEscape?_of_mem h
  simp only [escape, if_neg hne, hshort]

private theorem escape_of_numeric (h : IsHex digits c.toNat) (rest : Text) :
    escape ('u' :: digits ++ rest) = .ok (c, rest) := by
  have hchar := not_surrogate c
  show numericEscape (digits ++ rest) = _
  rw [numericEscape, h.hex4]
  dsimp only
  rw [if_neg (by omega), if_neg (by omega), Char.ofNat_toNat]

private theorem escape_of_pair {digits' : Text} {first second : Nat} (hfirst : IsHex digits first)
    (hsecond : IsHex digits' second) (hhigh : 0xD800 ≤ first ∧ first ≤ 0xDBFF)
    (hlow : 0xDC00 ≤ second ∧ second ≤ 0xDFFF)
    (hc : c.toNat = (first - 0xD800) * 0x400 + (second - 0xDC00) + 0x10000) (rest : Text) :
    escape ('u' :: digits ++ '\\' :: 'u' :: digits' ++ rest) = .ok (c, rest) := by
  have hsecondHalf : secondHalf first ('\\' :: 'u' :: digits' ++ rest) = .ok (c, rest) := by
    simp only [secondHalf, List.cons_append, ne_eq, not_true_eq_false, if_false, hsecond.hex4, if_pos hlow, ← hc,
      Char.ofNat_toNat]
  rw [List.append_assoc]
  show numericEscape (digits ++ ('\\' :: 'u' :: digits' ++ rest)) = _
  rw [numericEscape, hfirst.hex4]
  dsimp only
  rw [if_neg (by omega), if_pos hhigh, hsecondHalf]

private theorem string_of_escape (h : escape t = .ok (c, rest)) :
    string ('\\' :: t) = (string rest).map fun r => (c :: r.1, r.2) := by
  rw [string]
  simp only [show ('\\' : Char) ≠ '"' by decide, if_false, if_true]
  split
  · rename_i hfault
    rw [hfault] at h
    cases h
  · rename_i hok
    rw [hok] at h
    cases h
    rfl

private theorem Spells.string (h : Spells w c) (rest : Text) :
    string (w ++ rest) = (string rest).map fun r => (c :: r.1, r.2) := by
  cases h with
  | plain hc =>
    rw [List.singleton_append, Json.string]
    simp only [if_neg hc.quote, if_neg hc.slash, if_neg (Nat.not_lt.2 hc.control)]
  | short he => exact string_of_escape (escape_of_short he rest)
  | numeric hdigits => exact string_of_escape (escape_of_numeric hdigits rest)
  | pair hfirst hsecond hhigh hlow hc =>
    exact string_of_escape (escape_of_pair hfirst hsecond hhigh hlow hc rest)

theorem SpellsAll.string (h : SpellsAll t s) (rest : Text) : string (t ++ '"' :: rest) = .ok (s, rest) := by
  induction h with
  | nil =>
    rw [List.nil_append, Json.string]
    rfl
  | cons hw _ ih =>
    rw [List.append_assoc, hw.string, ih]
    rfl

theorem IsRaw.skipString (h : IsRaw t) (rest : Text) : skipString (t ++ '"' :: rest) = .ok rest := by
  induction h with
  | nil =>
    rw [List.nil_append, Json.skipString.eq_def]
    rfl
  | plain hc _ ih =>
    rw [List.cons_append, Json.skipString.eq_def]
    simp only [if_neg hc.quote, if_neg hc.slash, if_neg (Nat.not_lt.2 hc.control), ih]
  | short he _ ih =>
    obtain ⟨hshort, hne⟩ := shortEscape?_of_mem he
    rw [List.cons_append, List.cons_append, Json.skipString.eq_def]
    simp only [show ('\\' : Char) ≠ '"' by decide, if_false, if_true, if_neg hne, hshort, ih]
  | numeric hdigits _ ih =>
    rw [List.append_assoc, List.cons_append, List.cons_append, Json.skipString.eq_def]
    simp only [show ('\\' : Char) ≠ '"' by decide, if_false, if_true]
    split
    · rename_i hfault
      rw [hdigits.hex4] at hfault
      cases hfault
    · rename_i hok
      rw [hdigits.hex4] at hok
      cases hok
      exact ih

end

def writeChar (c : Char) : Text :=
  match (shortEscapes.erase ('/', '/')).find? (·.2 = c) with
  | some e => ['\\', e.1]
  | none =>
    if c.toNat < 0x20 then
      '\\' :: 'u' :: '0' :: '0' :: [(c.toNat / 16).digitChar, (c.toNat % 16).digitChar]
    else [c]

def writeString (s : Text) : Text := '"' :: s.flatMap writeChar ++ ['"']

private theorem spells_writeChar (c : Char) : Spells (writeChar c) c := by
  unfold writeChar
  split
  · rename_i e he
    have hmem := List.mem_of_mem_erase (List.mem_of_find?_eq_some he)
    have hc : e.2 = c := by simpa using List.find?_some he
    exact .short (hc ▸ hmem)
  · rename_i hnone
    have hne : ∀ e ∈ shortEscapes.erase ('/', '/'), e.2 ≠ c := by simpa using hnone
    split
    · rename_i hcontrol
      have hzero : IsHexDigit '0' 0 := ⟨by decide, .inl rfl⟩
      have hdigits := IsHex.digits hzero hzero (⟨by omega, .inl rfl⟩ : IsHexDigit _ (c.toNat / 16))
        (⟨by omega, .inl rfl⟩ : IsHexDigit _ (c.toNat % 16))
      refine .numeric ?_
      rwa [show ((0 * 16 + 0) * 16 + c.toNat / 16) * 16 + c.toNat % 16 = c.toNat by omega] at hdigits
    · rename_i hcontrol
      refine .plain ⟨?_, ?_, Nat.not_lt.1 hcontrol⟩
      · exact (hne ('"', '"') (by decide)).symm
      · exact (hne ('\\', '\\') (by decide)).symm

theorem isString_writeString (s : Text) : IsString (writeString s) s := by
  refine .quoted ?_
  induction s with
  | nil => exact .nil
  | cons c s ih => exact .cons (spells_writeChar c) ih

end SqfLayout.Json
