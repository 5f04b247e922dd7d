import SqfLayout.Convention.Decoding
import SqfLayout.FileTree
import SqfLayout.Style

/-! Files that cannot be used at all, and how they are reported. -/
namespace SqfLayout

structure LoadingFailure where
  filename : Text
  problem : Text
  details : Text
  deriving DecidableEq, Repr

namespace LoadingFailure

/-- A file that is not there has a message of its own; anything else is a failure to read. -/
def ofRead (filename : Text) : ReadProblem → LoadingFailure
  | .notFound => ⟨filename, "File not found", []⟩
  | problem => ⟨filename, "Failed reading", problem.message⟩

/-- A file that holds no convention. -/
def ofRefusal (filename : Text) (refusal : Convention.Refusal) : LoadingFailure :=
  ⟨filename, "Invalid convention", refusal.message⟩

/-- The problem, and its details if there are some. -/
def display (f : LoadingFailure) : Text :=
  if f.details.isEmpty then f.problem else f.problem ++ ": " ++ f.details

/-- On one line, with the file. -/
def concise (f : LoadingFailure) : Text :=
  Style.red "error" ++ ": " ++ f.filename ++ ": " ++ Style.bold f.display

end LoadingFailure

/-- Reads the convention that a file holds. -/
def Lookup.convention (lookup : Lookup) (path : Text) : Except LoadingFailure Convention :=
  match lookup.load path with
  | .error problem => .error (.ofRead path problem)
  | .ok source => (Convention.ofJson source).mapError (.ofRefusal path)

end SqfLayout
