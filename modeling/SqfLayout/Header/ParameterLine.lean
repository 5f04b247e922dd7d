import SqfLayout.Convention
import SqfLayout.Header
import SqfLayout.Header.Sentence

/-! One line of the parameter list: `0: Description <Type, Type> (Default: value)`. -/
namespace SqfLayout.Header

/-- The part of a text that goes on with a phrase: word characters, and single white space between
them. -/
def phraseTail : Text → Text
  | [] => []
  | c :: rest =>
    if Text.isWord c || Text.isSpace c && rest.head?.any Text.isWord then c :: phraseTail rest
    else []

/-- The phrase at the start of a text: a capitalized word of two characters or more, and further
words. -/
def phrase? : Text → Option Text
  | c :: d :: rest =>
    if isCapital c && Text.isWord d then some (c :: d :: phraseTail rest) else none
  | _ => none

/-- Neither of the two marks around the types. -/
def isNoAngle (c : Char) : Bool := c != '<' && c != '>'

/-- Reads a line, which must carry the given number; leading zeros do no harm. The types must all
be known. The documented value runs up to the last parenthesis, which ends the line. -/
def parameterLine? (c : Convention) (ordinal : Nat) (line : Text) : Option Parameter := do
  let digits := line.takeWhile Char.isDigit
  guard (!digits.isEmpty && Nat.ofDigitChars 10 digits 0 == ordinal)
  let rest ← List.isPrefixOf? ": " (line.dropWhile Char.isDigit)
  let description ← phrase? rest
  let rest ← List.isPrefixOf? " <" (rest.drop description.length)
  let types := Text.splitItems (rest.takeWhile isNoAngle)
  let rest ← List.isPrefixOf? "> (Default: " (rest.dropWhile isNoAngle)
  guard (rest.getLast? == some ')' && types.all c.isType)
  return ⟨description, types, rest.dropLast, none, none⟩

end SqfLayout.Header
