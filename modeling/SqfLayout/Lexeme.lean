import SqfLayout.Token

/-! Lexemes: the exact pieces that a source is cut into, before the layout of its lines is read. -/
namespace SqfLayout

/-- How the path of an include line is delimited. -/
inductive PathStyle
  | quotes | angles
  deriving DecidableEq, Repr

namespace PathStyle

def opening : PathStyle → Char
  | .quotes => '"'
  | .angles => '<'

def closing : PathStyle → Char
  | .quotes => '"'
  | .angles => '>'

/-- The style that a character opens. -/
def ofOpening? (c : Char) : Option PathStyle :=
  if c = '"' then some .quotes else if c = '<' then some .angles else none

/-- A path runs up to its closing delimiter and never over a line break. -/
def holds (style : PathStyle) (c : Char) : Bool := c != style.closing && !Text.isBreak c

end PathStyle

/-- One piece of source. Pieces with delimiters keep what stands between them. -/
inductive Lexeme
  /-- Line breaks with the blanks after each of them. -/
  | breaks (run : Text)
  | inclusion (gap : Text) (style : PathStyle) (path : Text)
  /-- What follows the `#` of any other directive. -/
  | directive (body : Text)
  | blockComment (body : Text)
  | string (quote : Char) (body : Text)
  /-- A piece without delimiters, which is a token as it stands. -/
  | plain (kind : Token.Kind) (text : Text)
  deriving DecidableEq, Repr

/-- Why a source cannot be cut. -/
inductive LexicalProblem
  | unexpected (c : Char)
  | malformedInclude
  | unterminatedInclude
  | unterminatedComment
  | unterminatedString
  deriving DecidableEq, Repr

/-- The text of a lexical problem. -/
def LexicalProblem.message : LexicalProblem → Text
  | .unexpected c => "Unexpected character '" ++ [c] ++ "'"
  | .malformedInclude => "Malformed include directive"
  | .unterminatedInclude => "Unterminated include path"
  | .unterminatedComment => "Unterminated block comment"
  | .unterminatedString => "Unterminated string"

/-- A lexical problem at its place. -/
structure LexicalFault where
  problem : LexicalProblem
  position : Position
  deriving DecidableEq, Repr

/-- A fault on one line: its place, then its problem. -/
def LexicalFault.display (f : LexicalFault) : Text :=
  Text.ofNat f.position.line ++ ":" ++ Text.ofNat f.position.column ++ " " ++ f.problem.message

namespace Lexeme

/-- The source text of a lexeme. -/
def text : Lexeme → Text
  | .breaks run => run
  | .inclusion gap style path => "#include" ++ gap ++ style.opening :: path ++ [style.closing]
  | .directive body => '#' :: body
  | .blockComment body => "/*" ++ body ++ "*/"
  | .string quote body => quote :: body ++ [quote]
  | .plain _ text => text

@[simp] theorem text_plain (kind : Token.Kind) (t : Text) : (plain kind t).text = t := rfl

/-- A run of line breaks, after which a line starts. -/
def isBreaks : Lexeme → Bool
  | .breaks _ => true
  | _ => false

/-- The tokens of a lexeme at its place. The tokens of a run of line breaks depend on the
indentation of the lines around it and are not given here. -/
def tokens (p : Position) : Lexeme → List Token
  | .breaks _ => []
  | .inclusion _ _ path => [⟨.preprocessorStart, "#", p⟩, ⟨.preprocessorInclude, path, p.step '#'⟩]
  | .directive body => [⟨.preprocessorStart, "#", p⟩, ⟨.preprocessorDirective, body, p.step '#'⟩]
  | .blockComment body => [⟨.blockComment, body, p⟩]
  | .string _ body => [⟨.string, body, p⟩]
  | .plain kind text => [⟨kind, text, p⟩]

end Lexeme
end SqfLayout
