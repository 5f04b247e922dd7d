import SqfLayout.Token

/-! The indentation of lines: levels that are open, and the tokens that a new line gives. -/
namespace SqfLayout

/-- The level that the file starts with, and the levels opened since, the innermost first. -/
structure Indentation where
  base : Nat
  opened : List Nat
  deriving DecidableEq, Repr

namespace Indentation

/-- The innermost level. -/
def level (i : Indentation) : Nat := i.opened.head?.getD i.base

/-- A line with the given indentation closes every opened level deeper than it. A line deeper than
the level left opens one; any other that has closed nothing stays on its level. A line below the
base lowers the base, unless it has closed a level. -/
def enter (i : Indentation) (width : Nat) : Indentation × List Token.Kind :=
  let closing := List.replicate (i.opened.takeWhile (width < ·)).length Token.Kind.outdent
  let left : Indentation := ⟨i.base, i.opened.dropWhile (width < ·)⟩
  if left.level < width then (⟨left.base, width :: left.opened⟩, closing ++ [.indent])
  else if closing.isEmpty then
    (if width < left.level then ⟨width, []⟩ else left, [.newline])
  else (left, closing)

/-- The number of line breaks in a run; a carriage return before a line feed makes one with it. -/
def countBreaks : Text → Nat
  | [] => 0
  | [c] => if Text.isBreak c then 1 else 0
  | c :: d :: rest =>
    if c = '\r' ∧ d = '\n' then countBreaks rest + 1
    else countBreaks (d :: rest) + if Text.isBreak c then 1 else 0

/-- The indentation after a run: the blanks behind its last line break. -/
def width (run : Text) : Nat := (run.reverse.takeWhile Text.isBlank).length

/-- A token that stands for the layout of lines. -/
def token (p : Position) (kind : Token.Kind) : Token :=
  ⟨kind, if kind = .newline then ['\n'] else [], p⟩

/-- A run of more than one line break holds an empty line, which shows as a blank token. -/
def blanks (p : Position) (run : Text) : List Token :=
  if 1 < countBreaks run then [token p .blank] else []

/-- What remains open at the end of a text is closed there. -/
def finish (i : Indentation) (p : Position) : List Token :=
  i.opened.map (fun _ => token p .outdent) ++ [Token.eos p]

end Indentation
end SqfLayout
