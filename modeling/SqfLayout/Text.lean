/-! Text as a list of code points: cutting into lines and items, trimming, aligning.
Every function here sees code points only; character classes have their own modules. -/
namespace SqfLayout

/-- Text, one code point at a time. -/
abbrev Text := List Char

/-- The code points of a string. It stays folded in proofs; `Text.ofString_eq` opens it. -/
@[irreducible] def Text.ofString (s : String) : Text := s.toList

@[simp] theorem Text.ofString_eq (s : String) : Text.ofString s = s.toList := by
  unfold Text.ofString; rfl

instance : Coe String Text := ⟨Text.ofString⟩

namespace Text

/-- A number in decimal, without leading zeros. -/
def ofNat (n : Nat) : Text := Nat.toDigits 10 n

/-- A space or a tab: what a line may be indented with. -/
def isBlank (c : Char) : Bool := c == ' ' || c == '\t'

/-- A character that breaks a line. -/
def isBreak (c : Char) : Bool := c == '\n' || c == '\r'

/-- White space of ASCII, as trimmed from a rendered message. -/
def isAsciiSpace (c : Char) : Bool :=
  c == ' ' || c == '\t' || c == '\n' || c == '\r' || c == '\x0c'

/-- A hexadecimal digit of ASCII, in either case. -/
def isHexDigit (c : Char) : Bool :=
  c.isDigit || ('a' ≤ c && c ≤ 'f') || ('A' ≤ c && c ≤ 'F')

/-- The pieces between line feeds; there is always one more piece than line feeds. -/
def splitLines : Text → List Text
  | [] => [[]]
  | c :: rest =>
    if c = '\n' then [] :: splitLines rest else (splitLines rest).modifyHead (c :: ·)

/-- The pieces between marks made of a comma and a space, read from the left. -/
def splitItems : Text → List Text
  | [] => [[]]
  | [c] => [[c]]
  | c :: d :: rest =>
    if c = ',' ∧ d = ' ' then [] :: splitItems rest
    else (splitItems (d :: rest)).modifyHead (c :: ·)

/-- Writes items with a comma and a space between them. -/
def joinItems (items : List Text) : Text := List.intercalate ", " items

/-- Names in single quotes, as a message lists them. -/
def quotedItems (names : List Text) : Text :=
  joinItems (names.map fun name => "'" ++ name ++ "'")

/-- A line without the carriage return at its end, if it has one. -/
def dropReturn (line : Text) : Text :=
  if line.getLast? = some '\r' then line.dropLast else line

theorem dropReturn_concat (line : Text) : dropReturn (line ++ ['\r']) = line := by
  simp [dropReturn]

theorem dropReturn_eq_self_iff {line : Text} : dropReturn line = line ↔ line.getLast? ≠ some '\r' := by
  unfold dropReturn
  split
  · rename_i hreturn
    refine iff_of_false (fun hsame => ?_) (fun h => h hreturn)
    have hlength := congrArg List.length hsame
    have hpos : 0 < line.length := List.length_pos_of_mem (List.mem_of_getLast? hreturn)
    rw [List.length_dropLast] at hlength
    omega
  · exact iff_of_true rfl ‹_›

/-- The lines of a text. A line feed ends a line, together with one carriage return before it;
what follows the last line feed is a line only if it is not empty. -/
def lines (text : Text) : List Text :=
  let pieces := splitLines text
  pieces.dropLast.map dropReturn ++ pieces.getLast?.toList.filter (!·.isEmpty)

/-- Drops white space of ASCII at both ends. -/
def trim (text : Text) : Text :=
  ((text.dropWhile isAsciiSpace).reverse.dropWhile isAsciiSpace).reverse

/-- As many spaces as asked for. -/
def spaces (width : Nat) : Text := List.replicate width ' '

/-- Fills up with spaces on the left; a longer text stays as it is. -/
def alignRight (width : Nat) (text : Text) : Text := spaces (width - text.length) ++ text

/-- Replaces from a text whose first characters, as many as told, belong to a mark replaced before. -/
def replaceFrom (mark new : Text) : Nat → Text → Text
  | _, [] => []
  | skipped + 1, _ :: rest => replaceFrom mark new skipped rest
  | 0, c :: rest =>
    if mark.isPrefixOf (c :: rest) then new ++ replaceFrom mark new (mark.length - 1) rest
    else c :: replaceFrom mark new 0 rest

/-- Replaces every occurrence of a mark, read from the left and not overlapping. The mark is not
empty; what takes its place is not searched again. -/
def replace (mark new text : Text) : Text := replaceFrom mark new 0 text

theorem takeWhile_isPrefix (p : Char → Bool) (t : Text) : t.takeWhile p <+: t :=
  List.takeWhile_prefix p

/-- A byte order mark at the very start is no part of the text. -/
def dropMark : Text → Text
  | [] => []
  | c :: rest => if c = '\uFEFF' then rest else c :: rest

end Text
end SqfLayout
