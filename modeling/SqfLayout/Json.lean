import SqfLayout.Text

/-! Reading JSON text from the front. A fault is blamed on a place in the text; what a reader leaves
unread tells that place. -/
namespace SqfLayout.Json

/-- Why a text is no JSON at some place. -/
inductive Problem
  | endInValue
  | endInList
  | endInObject
  | endInString
  | noColon
  | noListEnd
  | noObjectEnd
  | noWord
  | noValue
  | badEscape
  | badNumber
  | numberTooLarge
  | controlCharacter
  | keyNotString
  | loneSurrogate
  | trailingComma
  | trailingCharacters
  | halfSurrogatePair
  deriving DecidableEq, Repr

def Problem.message : Problem → Text
  | .endInValue => "EOF while parsing a value"
  | .endInList => "EOF while parsing a list"
  | .endInObject => "EOF while parsing an object"
  | .endInString => "EOF while parsing a string"
  | .noColon => "expected `:`"
  | .noListEnd => "expected `,` or `]`"
  | .noObjectEnd => "expected `,` or `\x7d`"
  | .noWord => "expected ident"
  | .noValue => "expected value"
  | .badEscape => "invalid escape"
  | .badNumber => "invalid number"
  | .numberTooLarge => "number out of range"
  | .controlCharacter => "control character (\\u0000-\\u001F) found while parsing a string"
  | .keyNotString => "key must be a string"
  | .loneSurrogate => "lone leading surrogate in hex escape"
  | .trailingComma => "trailing comma"
  | .trailingCharacters => "trailing characters"
  | .halfSurrogatePair => "unexpected end of hex escape"

/-- A problem, and how many bytes of the text lie behind its place. -/
structure Fault where
  problem : Problem
  left : Nat
  deriving DecidableEq, Repr

/-- The bytes that a text takes in UTF-8. -/
def byteCount (text : Text) : Nat := text.foldr (fun c n => c.utf8Size + n) 0

/-- A fault before the first byte of what is left. -/
def faultBefore (p : Problem) (left : Text) : Fault := ⟨p, byteCount left⟩

/-- A fault behind the first byte of what is left. -/
def faultBehind (p : Problem) (left : Text) : Fault := ⟨p, byteCount left - 1⟩

/-- Line and column behind the given number of bytes. The column counts bytes and may lie within a
character. -/
def place (line column : Nat) : Text → Nat → Nat × Nat
  | [], _ => (line, column)
  | c :: rest, bytes =>
    if bytes < c.utf8Size then (line, column + bytes)
    else if c = '\n' then place (line + 1) 0 rest (bytes - c.utf8Size)
    else place line (column + c.utf8Size) rest (bytes - c.utf8Size)

/-- White space between the parts of JSON text. -/
def isWhite (c : Char) : Bool := c == ' ' || c == '\n' || c == '\t' || c == '\r'

def skipWhite (s : Text) : Text := s.dropWhile isWhite

theorem length_skipWhite_le (s : Text) : (skipWhite s).length ≤ s.length :=
  (List.dropWhile_suffix _).length_le

theorem length_of_skipWhite {s rest : Text} {c : Char} (h : skipWhite s = c :: rest) :
    rest.length < s.length := by
  have := length_skipWhite_le s
  rwa [h] at this

/-- Reads the given characters, which finish a word that was recognised by its first. -/
def word : Text → Text → Except Fault Text
  | [], s => .ok s
  | _ :: _, [] => .error (faultBefore .endInValue [])
  | e :: es, c :: rest => if c = e then word es rest else .error (faultBehind .noWord (c :: rest))

/-- The value of a hexadecimal digit. -/
def hexValue? (c : Char) : Option Nat :=
  if c.isDigit then some (c.toNat - '0'.toNat)
  else if 'a' ≤ c ∧ c ≤ 'f' then some (c.toNat - 'a'.toNat + 10)
  else if 'A' ≤ c ∧ c ≤ 'F' then some (c.toNat - 'A'.toNat + 10)
  else none

/-- Reads four hexadecimal digits. Four bytes are taken before they are looked at. -/
def hex4 (s : Text) : Except Fault (Nat × Text) :=
  if byteCount s < 4 then .error ⟨.endInString, 0⟩
  else match s with
    | a :: b :: c :: d :: rest =>
      match hexValue? a, hexValue? b, hexValue? c, hexValue? d with
      | some a, some b, some c, some d => .ok (((a * 16 + b) * 16 + c) * 16 + d, rest)
      | _, _, _, _ => .error ⟨.badEscape, byteCount s - 4⟩
    | _ => .error ⟨.badEscape, byteCount s - 4⟩

/-- The character of a short escape. -/
def shortEscape? (c : Char) : Option Char :=
  if c = '"' then some '"'
  else if c = '\\' then some '\\'
  else if c = '/' then some '/'
  else if c = 'b' then some '\x08'
  else if c = 'f' then some '\x0c'
  else if c = 'n' then some '\n'
  else if c = 'r' then some '\r'
  else if c = 't' then some '\t'
  else none

/-- The second half of a surrogate pair, after the first, which is given. -/
def secondHalf (first : Nat) (s : Text) : Except Fault (Char × Text) :=
  match s with
  | [] => .error ⟨.endInString, 0⟩
  | c :: s =>
    if c ≠ '\\' then .error (faultBehind .halfSurrogatePair (c :: s))
    else match s with
      | [] => .error ⟨.endInString, 0⟩
      | d :: s =>
        if d ≠ 'u' then .error (faultBehind .halfSurrogatePair (d :: s))
        else match hex4 s with
          | .error fault => .error fault
          | .ok (second, rest) =>
            if 0xDC00 ≤ second ∧ second ≤ 0xDFFF then
              .ok (Char.ofNat ((first - 0xD800) * 0x400 + (second - 0xDC00) + 0x10000), rest)
            else .error (faultBefore .loneSurrogate rest)

/-- A character given by number. -/
def numericEscape (s : Text) : Except Fault (Char × Text) :=
  match hex4 s with
  | .error fault => .error fault
  | .ok (n, rest) =>
    if 0xDC00 ≤ n ∧ n ≤ 0xDFFF then .error (faultBefore .loneSurrogate rest)
    else if 0xD800 ≤ n ∧ n ≤ 0xDBFF then secondHalf n rest
    else .ok (Char.ofNat n, rest)

/-- An escaped character, after its backslash. -/
def escape : Text → Except Fault (Char × Text)
  | [] => .error ⟨.endInString, 0⟩
  | c :: rest =>
    if c = 'u' then numericEscape rest
    else match shortEscape? c with
      | some d => .ok (d, rest)
      | none => .error (faultBehind .badEscape (c :: rest))

theorem length_of_hex4 {s rest : Text} {n : Nat} (h : hex4 s = .ok (n, rest)) :
    rest.length < s.length := by
  unfold hex4 at h
  split at h
  · cases h
  · split at h
    · split at h
      · cases h; simp only [List.length_cons]; omega
      · cases h
    · cases h

theorem length_of_secondHalf {first : Nat} {s rest : Text} {c : Char}
    (h : secondHalf first s = .ok (c, rest)) : rest.length < s.length := by
  unfold secondHalf at h
  split at h
  · cases h
  · split at h
    · cases h
    · split at h
      · cases h
      · split at h
        · cases h
        · split at h
          · cases h
          · rename_i hh
            split at h
            · obtain ⟨-, rfl⟩ := Prod.mk.inj (Except.ok.inj h)
              have := length_of_hex4 hh
              simp only [List.length_cons]
              omega
            · cases h

theorem length_of_escape {s rest : Text} {c : Char} (h : escape s = .ok (c, rest)) :
    rest.length < s.length := by
  unfold escape at h
  split at h
  · cases h
  · split at h
    · unfold numericEscape at h
      split at h
      · cases h
      · rename_i hh
        have := length_of_hex4 hh
        split at h
        · cases h
        · split at h
          · have := length_of_secondHalf h
            simp only [List.length_cons]
            omega
          · obtain ⟨-, rfl⟩ := Prod.mk.inj (Except.ok.inj h)
            simp only [List.length_cons]
            omega
    · split at h
      · cases h
        exact Nat.lt_succ_self _
      · cases h

/-- The text of a string, after its opening quote, and what follows the closing one. -/
def string (s : Text) : Except Fault (Text × Text) :=
  match s with
  | [] => .error ⟨.endInString, 0⟩
  | c :: rest =>
    if c = '"' then .ok ([], rest)
    else if c = '\\' then
      match _ : escape rest with
      | .error fault => .error fault
      | .ok (d, rest') => (string rest').map fun r => (d :: r.1, r.2)
    else if c.toNat < 0x20 then .error (faultBehind .controlCharacter (c :: rest))
    else (string rest).map fun r => (c :: r.1, r.2)
termination_by s.length
decreasing_by
  · rename_i h
    exact Nat.lt_succ_of_lt (length_of_escape h)
  · exact Nat.lt_succ_self _

/-- What follows a string that nobody asks for, after its opening quote. Escapes given by number
need not make characters. -/
def skipString (s : Text) : Except Fault Text :=
  match s with
  | [] => .error ⟨.endInString, 0⟩
  | c :: rest =>
    if c = '"' then .ok rest
    else if c = '\\' then
      match rest with
      | [] => .error ⟨.endInString, 0⟩
      | d :: rest' =>
        if d = 'u' then
          match _ : hex4 rest' with
          | .error fault => .error fault
          | .ok (_, rest'') => skipString rest''
        else match shortEscape? d with
          | some _ => skipString rest'
          | none => .error (faultBehind .badEscape (d :: rest'))
    else if c.toNat < 0x20 then .error (faultBefore .controlCharacter (c :: rest))
    else skipString rest
termination_by s.length
decreasing_by
  · rename_i h
    have := length_of_hex4 h
    simp only [List.length_cons]
    omega
  · simp only [List.length_cons]; omega
  · exact Nat.lt_succ_self _

theorem length_of_skipString {s rest : Text} (h : skipString s = .ok rest) :
    rest.length < s.length := by
  fun_induction skipString s with
  | case1 => cases h
  | case2 => cases h; exact Nat.lt_succ_self _
  | case3 => cases h
  | case4 => cases h
  | case5 _ _ _ hh _ ih =>
    have := ih h
    have := length_of_hex4 hh
    simp only [List.length_cons]
    omega
  | case6 _ _ _ _ _ _ ih =>
    have := ih h
    simp only [List.length_cons]
    omega
  | case7 => cases h
  | case8 => cases h
  | case9 _ _ _ _ _ ih => exact Nat.lt_succ_of_lt (ih h)

end SqfLayout.Json
