import SqfLayout.Text.Quoted

/-! What a run of the program writes, in order, and its end. -/
namespace SqfLayout.CommandLine

/-- How much a line of the log matters. -/
inductive Level
  | debug | info | warn
  deriving DecidableEq, Repr

def Level.name : Level → Text
  | .debug => "DEBUG"
  | .info => "INFO"
  | .warn => "WARN"

/-- Text on standard output, text on standard error, a line of the log, or the list of commands and options
that is printed on demand. Of that list only the subject is given. -/
inductive Piece
  | out (text : Text)
  | err (text : Text)
  | log (level : Level) (line : Text)
  | help (subcommand? : Option Text)
  deriving DecidableEq, Repr

/-- A character of the log. Those that a terminal would obey are given by number: the bell, the
backspace, the form feed, the escape and the delete character as a byte, others as a code point. -/
def logged (c : Char) : Text :=
  if c = '\x07' ∨ c = '\x08' ∨ c = '\x0c' ∨ c = '\x1b' ∨ c = '\x7f' then
    "\\x" ++ (if c.toNat < 16 then "0" else "") ++ Text.hexadecimal c.toNat
  else if 0x80 ≤ c.toNat ∧ c.toNat ≤ 0x9F then
    "\\u\x7b" ++ Text.hexadecimal c.toNat ++ "\x7d"
  else [c]

/-- An entry of the log as it is written. -/
def logEntry (level : Level) (line : Text) : Text := level.name ++ " " ++ line.flatMap logged

/-- The lines behind the first one of a text, each with its line break. -/
def furtherLines (entry : Text) : Text :=
  match entry.dropWhile (· ≠ '\n') with
  | [] => []
  | _ :: more => more ++ "\n"

abbrev Output := List Piece

namespace Output

/-- All of standard output but help. -/
def stdout (output : Output) : Text :=
  output.flatMap fun
    | .out text => text
    | _ => []

/-- All of standard error but the log. Only the first line of an entry of the log shows by its level
that it is one; further lines count as other text. -/
def stderr (output : Output) : Text :=
  output.flatMap fun
    | .err text => text
    | .log level line => furtherLines (logEntry level line)
    | _ => []

/-- The lines that show by their level that they are of the log. -/
def log (output : Output) : List Text :=
  output.filterMap fun
    | .log level line => some ((logEntry level line).takeWhile (· ≠ '\n'))
    | _ => none

/-- Without debugging only warnings are logged. -/
def shown (debug : Bool) (output : Output) : Output :=
  output.filter fun
    | .log level _ => debug || level = .warn
    | _ => true

end Output

/-- A finished run. -/
structure Outcome where
  exit : Nat
  output : Output
  deriving DecidableEq, Repr

/-- The run with the part of its log that is shown. -/
def Outcome.shown (debug : Bool) (outcome : Outcome) : Outcome :=
  ⟨outcome.exit, outcome.output.shown debug⟩

end SqfLayout.CommandLine
