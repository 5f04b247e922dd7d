import SqfLayout.Convention
import SqfLayout.Lexeme
import SqfLayout.Text.Lowercase

/-! What can be wrong with a file. Problems are causes; their texts are made here and nowhere
else. -/
namespace SqfLayout

/-- Why a token was required. A hint takes the place of the plain message. -/
inductive Hint
  | indentParameter
  | moreParameters
  | missingParameter
  | missingTypeCheck
  | moreTypes
  | missingSizeCheck
  | typeCheck (type : Text) (sentinel : Sentinel)
  | custom (text : Text)
  deriving DecidableEq, Repr

def Hint.message : Hint → Text
  | .indentParameter => "Indent the parameter for readability"
  | .moreParameters => "Header has more parameters"
  | .missingParameter => "Missing parameter in header"
  | .missingTypeCheck => "Missing type check for parameter"
  | .moreTypes => "Parameter has more type in header"
  | .missingSizeCheck => "Add array size check"
  | .typeCheck type sentinel =>
    "Type " ++ Text.lowercase type ++ " in header, check for " ++ sentinel.describe
  | .custom text => text

/-- Puts each argument in place of its number in braces, one argument after the other. An argument
that holds a later placeholder is filled in turn. -/
def Text.fillFrom (i : Nat) (template : Text) : List Text → Text
  | [] => template
  | a :: rest => fillFrom (i + 1) (replace ("\x7b" ++ ofNat i ++ "\x7d") a template) rest

def Text.fill (template : Text) (arguments : List Text) : Text := fillFrom 0 template arguments

/-- What is wrong at one place. -/
inductive Problem
  | lexical (problem : LexicalProblem)
  /-- Another token was required. -/
  | mismatch (expected : Token.Kind) (found : Token) (hint : Option Hint)
  | noExpression (found : Token.Kind)
  | noSeparator
  | unclosedCode
  | unknownInclude (path : Text)
  /-- The binding statement is there, but the header declares no parameter. -/
  | undeclaredParameters
  /-- The header declares parameters, but no binding statement follows. -/
  | unusedParameters
  | wrongSentinel (type : Text) (sentinel : Sentinel)
  | badTitle (title : Text)
  | badAuthors (known : List Text)
  | badDescription
  | noParameters
  | badParameter (ordinal : Nat) (types : List Text)
  | stated (template : Text) (arguments : List Text)
  deriving DecidableEq, Repr

namespace Problem

def message : Problem → Text
  | .lexical problem => problem.message
  | .mismatch _ _ (some hint) => hint.message
  | .mismatch expected found none => "Expected " ++ expected.name ++ ", got " ++ found.kind.name
  | .noExpression found => "Expected an expression, got " ++ found.name
  | .noSeparator => "Expected comma or closing bracket in array"
  | .unclosedCode => "Unclosed code block"
  | .unknownInclude path => "Unknown include path: " ++ path
  | .undeclaredParameters => "Missing parameters in header"
  | .unusedParameters => "Parameters in header not used"
  | .wrongSentinel type sentinel => (Hint.typeCheck type sentinel).message
  | .badTitle _ => "Invalid project title"
  | .badAuthors _ => "Invalid authors"
  | .badDescription => "Invalid description"
  | .noParameters => "Missing parameters"
  | .badParameter _ _ => "Invalid parameter definition"
  | .stated template arguments => Text.fill template arguments

/-- What a problem's message leaves out; often nothing. -/
def details : Problem → Text
  | .lexical _ => "The file could not be split into tokens, so its layout was not checked."
  | .mismatch expected found _ =>
    "Expected " ++ expected.name ++ " but found " ++ found.describe ++ "."
  | .badTitle title =>
    "The header comment must begin on the line after the opening '/*' with the project title '" ++
      title ++ "', indented by four spaces."
  | .badAuthors known =>
    "The author line reads 'Author: ' followed by one or more of " ++ Text.quotedItems known ++
      ", separated by a comma and a space."
  | .badDescription =>
    "A 'Description:' line must be followed by one or more indented lines of\n" ++
      "prose. Each starts with a capitalized word, continues with words or quoted\n" ++
      "\"terms\" separated by spaces or hyphens, and may end with a period."
  | .noParameters =>
    "The header must have a 'Parameter(s):' section, " ++
      "listing 'None' if the file takes no parameters."
  | .badParameter ordinal types =>
    "Parameters are numbered sequentially from 0 and written as\n\n    " ++ Text.ofNat ordinal ++
      ": Description <Type> (Default: value)\n\n" ++
      "with one or more types, separated by a comma and a space, drawn from\n" ++
      Text.quotedItems types ++ ". The list ends with an empty line."
  | _ => []

end Problem

/-- A problem at its place. -/
structure Violation where
  problem : Problem
  position : Position
  deriving DecidableEq, Repr

/-- A lexical fault, presented like every other violation. -/
def LexicalFault.violation (f : LexicalFault) : Violation := ⟨.lexical f.problem, f.position⟩

end SqfLayout
