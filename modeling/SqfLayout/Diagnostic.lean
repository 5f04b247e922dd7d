import SqfLayout.Style
import SqfLayout.Violation

/-! A violation as it is shown: with its place, the line of source it is about and a caret. -/
namespace SqfLayout

/-- Everything that is shown. -/
structure Diagnostic where
  filename : Text
  source : Text
  problem : Text
  details : Text
  position : Position
  deriving DecidableEq, Repr

/-- A violation shown against its file. -/
def Violation.diagnostic (v : Violation) (filename source : Text) : Diagnostic :=
  ⟨filename, source, v.problem.message, v.problem.details, v.position⟩

namespace Diagnostic
open Style Text

/-- The line of source at a position, or a question mark if there is none. -/
def code (d : Diagnostic) : Text := (lines d.source)[d.position.line - 1]?.getD ['?']

/-- The margin is as wide as the line number, but at least three. -/
def marginWidth (d : Diagnostic) : Nat := max 3 (ofNat d.position.line).length

/-- The column, counted from one. -/
def column (d : Diagnostic) : Nat := max 1 d.position.column

/-- On one line, without the details. -/
def display (d : Diagnostic) : Text :=
  "error: " ++ d.filename ++ ":" ++ ofNat d.position.line ++ ":" ++ ofNat d.position.column ++ " " ++
    d.problem

/-- The problem, its place, the line of source with a caret below it, and the details. -/
def full (d : Diagnostic) : Text :=
  let margin := spaces d.marginWidth ++ " " ++ blue "|"
  trim (red "error" ++ ": " ++ bold d.problem ++ "\n" ++
    d.filename ++ ":" ++ ofNat d.position.line ++ ":" ++ ofNat d.column ++ "\n\n" ++
    margin ++ "\n" ++
    blue (alignRight d.marginWidth (ofNat d.position.line)) ++ " " ++ blue "|" ++ " " ++ d.code ++
      "\n" ++
    margin ++ " " ++ red (alignRight d.column "^") ++ "\n\n" ++
    d.details)

end Diagnostic
end SqfLayout
