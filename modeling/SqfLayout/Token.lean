import SqfLayout.Position

/-! Tokens: classified pieces of a source, each with its place. -/
namespace SqfLayout

namespace Token

/-- What a token is. The layout of lines shows in the kinds `newline`, `blank`, `indent` and
`outdent`; `eos` stands after everything else. -/
inductive Kind
  | preprocessorStart | preprocessorInclude | preprocessorDirective
  | newline | blank | blockComment | lineComment
  | command | string | number | operator
  | leftBracket | rightBracket | leftBrace | rightBrace | leftParen | rightParen
  | comma | semicolon | space | indent | outdent | eos
  deriving DecidableEq, Repr

/-- How messages name a kind. -/
def Kind.name : Kind → Text
  | .preprocessorStart => "preprocessor-start"
  | .preprocessorInclude => "preprocessor-include"
  | .preprocessorDirective => "preprocessor-directive"
  | .newline => "newline"
  | .blank => "blank"
  | .blockComment => "blockComment"
  | .lineComment => "lineComment"
  | .command => "command"
  | .string => "string"
  | .number => "number"
  | .operator => "operator"
  | .leftBracket => "left-bracket"
  | .rightBracket => "right-bracket"
  | .leftBrace => "left-brace"
  | .rightBrace => "right-brace"
  | .leftParen => "left-paren"
  | .rightParen => "right-paren"
  | .comma => "comma"
  | .semicolon => "semicolon"
  | .space => "space"
  | .indent => "indent"
  | .outdent => "outdent"
  | .eos => "eos"

/-- Every kind, for finding one by its name. -/
def Kind.all : List Kind :=
  [.preprocessorStart, .preprocessorInclude, .preprocessorDirective, .newline, .blank,
   .blockComment, .lineComment, .command, .string, .number, .operator, .leftBracket,
   .rightBracket, .leftBrace, .rightBrace, .leftParen, .rightParen, .comma, .semicolon, .space,
   .indent, .outdent, .eos]

/-- The kind of a name. -/
def Kind.ofName? (name : Text) : Option Kind := Kind.all.find? (·.name = name)

/-- The layout of lines carries no meaning inside brackets. -/
def Kind.isLayout : Kind → Bool
  | .newline | .blank | .indent | .outdent => true
  | _ => false

end Token

/-- A piece of source: its kind, the text it stands for, and where it starts. -/
structure Token where
  kind : Token.Kind
  value : Text
  position : Position
  deriving DecidableEq, Repr

namespace Token

/-- The end of a stream, at a place. -/
def eos (p : Position) : Token := ⟨.eos, [], p⟩

/-- How a message describes a token it did not expect. -/
def describe (t : Token) : Text :=
  match t.kind with
  | .command | .number | .operator => t.kind.name ++ " '" ++ t.value ++ "'"
  | .string => "string \"" ++ t.value ++ "\""
  | kind => kind.name

end Token
end SqfLayout
