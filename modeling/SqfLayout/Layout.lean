import SqfLayout.Expression.Reader
import SqfLayout.Header.Comment
import SqfLayout.Token.Stream

/-! The layout of a file: the include line, the header comment, and the statement that binds the
parameters, which must agree with the header. -/
namespace SqfLayout.Layout
open TokenReader

/-- What a check reports on its way. -/
inductive Event
  | headerRead (authors : List Text) (count : Nat)
  | bound (description name : Text)
  | conformant (count : Nat)
  deriving DecidableEq, Repr

/-- A failed check: the violation, and what was reported before it. -/
structure Rejection where
  violation : Violation
  log : List Event
  deriving DecidableEq, Repr

/-- A reader whose failures tell the log so far. -/
abbrev Checker := EStateM Rejection (List Token)

/-- Runs a reader after the given log. -/
def logged {α : Type} (log : List Event) (reader : TokenReader α) : Checker α :=
  EStateM.adaptExcept (⟨·, log⟩) reader

/-- Takes a token whose value does not matter. -/
def pass (kind : Token.Kind) : TokenReader Unit := do
  let _ ← need kind

/-- Takes a token whose value does not matter, and whose lack has a message of its own. -/
def passFor (hint : Hint) (kind : Token.Kind) : TokenReader Unit := do
  let _ ← expect kind (some hint)

/-- The include line and the header comment. -/
def preamble (c : Convention) : TokenReader Header := do
  pass .preprocessorStart
  let path ← need .preprocessorInclude
  if path.value ≠ c.header then throw ⟨.unknownInclude path.value, path.position⟩
  pass .newline
  let comment ← need .blockComment
  match Header.read c comment.position.line comment.value with
  | .error violation => throw violation
  | .ok header => return header

/-- Takes a token that must also have the given value. -/
def literal (kind : Token.Kind) (value : Text) (type : Text) (sentinel : Sentinel) :
    TokenReader Unit := do
  let t ← expect kind (some (.typeCheck type sentinel))
  if t.value ≠ value then throw ⟨.wrongSentinel type sentinel, t.position⟩

/-- The literal that stands for a type. -/
def sentinel (type : Text) : Sentinel → TokenReader Unit
  | .emptyArray => do
    passFor (.typeCheck type .emptyArray) .leftBracket
    pass .rightBracket
  | .emptyCode => do
    passFor (.typeCheck type .emptyCode) .leftBrace
    pass .rightBrace
  | .command name => literal .command name type (.command name)
  | .number text => literal .number text type (.number text)
  | .string text => literal .string text type (.string text)

/-- The literals of a parameter's types, in the order of the header. A type without a sentinel has
no literal, but its separator stays. -/
def typeChecks (c : Convention) : List Text → TokenReader Unit
  | [] => pure ()
  | type :: rest => do
    if let some s := c.sentinel? type then sentinel type s
    unless rest.isEmpty do
      passFor .moreTypes .comma
      pass .space
      typeChecks c rest

/-- The size of an array: an array or a number. -/
def sizeCheck : TokenReader Unit := do
  passFor .missingSizeCheck .comma
  pass .space
  if (next (← get)).kind = .leftBracket then
    let _ ← Expression.readArray
  else pass .number

/-- The entry of a parameter: its variable, its value, its types, and its size where needed. -/
def entry (c : Convention) (p : Parameter) : TokenReader Parameter := do
  passFor .missingTypeCheck .leftBracket
  let name ← need .string
  pass .comma
  pass .space
  let value ← Expression.read
  passFor .missingTypeCheck .comma
  pass .space
  pass .leftBracket
  typeChecks c p.types
  pass .rightBracket
  if c.needsSizeCheck p.types then sizeCheck
  pass .rightBracket
  return { p with name? := some name.value, value? := some value }

/-- What a parameter with its variable reports. -/
def boundEvent (p : Parameter) : Event := .bound p.description (p.name?.getD [])

/-- The entries of all parameters, one on a line. -/
def entries (c : Convention) (log : List Event) : List Parameter → Checker (List Parameter)
  | [] => pure []
  | p :: rest => do
    let bound ← logged log (entry c p)
    let log := log ++ [boundEvent bound]
    unless rest.isEmpty do
      logged log do
        passFor .moreParameters .comma
        pass .newline
    return bound :: (← entries c log rest)

/-- The statement that binds the parameters, from its command on. What follows the line of its
closing bracket is not looked at. -/
def binding (c : Convention) (log : List Event) (parameters : List Parameter) :
    Checker (List Parameter) := do
  logged log do
    let _ ← take
    pass .space
    pass .leftBracket
    passFor .indentParameter .indent
  let bound ← entries c log parameters
  logged (log ++ bound.map boundEvent) (passFor .missingParameter .outdent)
  return bound

/-- The whole layout. A file must bind parameters if and only if its header declares some. -/
def layout (c : Convention) : Checker Header := do
  let header ← logged [] (preamble c)
  let log := [Event.headerRead header.authors header.parameters.length]
  logged log do
    pass .blank
    pass .newline
  let t := next (← get)
  match decide (t.kind = .command ∧ t.value = c.parametersCommand), header.parameters with
  | true, [] => logged log (reject .undeclaredParameters)
  | false, _ :: _ => logged log (reject .unusedParameters)
  | true, parameters => return { header with parameters := ← binding c log parameters }
  | false, [] => return header

/-- What a conformant header reports. -/
def conformantLog (h : Header) : List Event :=
  .headerRead h.authors h.parameters.length ::
    (h.parameters.map boundEvent ++ [.conformant h.parameters.length])

/-- Checks a stream of tokens: the header with its parameters bound, or the first violation. -/
def check (c : Convention) (tokens : List Token) : Except Rejection Header :=
  match layout c (complete tokens) with
  | .ok header _ => .ok header
  | .error rejection _ => .error rejection

/-- The answer of a check without its log. -/
def validate (c : Convention) (tokens : List Token) : Except Violation Header :=
  (check c tokens).mapError Rejection.violation

/-- Checks a source: the header with its parameters bound, or the first violation. -/
def answer (c : Convention) (source : Text) : Except Violation Header :=
  (Token.stream source).mapError LexicalFault.violation >>= validate c

/-- The log of a check. -/
def log (c : Convention) (tokens : List Token) : List Event :=
  match check c tokens with
  | .ok header => conformantLog header
  | .error rejection => rejection.log

/-- A count with its noun. -/
private def parametersCount (n : Nat) : Text :=
  Text.ofNat n ++ " parameter" ++ (if n = 1 then "" else "s")

/-- The line of a log. -/
def Event.message (filename : Text) : Event → Text
  | .headerRead authors n =>
    "Header by " ++ Text.joinItems authors ++ " declares " ++ parametersCount n
  | .bound description name => "Parameter " ++ description ++ " bound to " ++ name
  | .conformant n => filename ++ ": " ++ parametersCount n ++ " conformant"

end SqfLayout.Layout
