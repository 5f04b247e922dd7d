import SqfLayout.Violation

/-! Reading tokens one by one. A reader that fails keeps the place it had got to. -/
namespace SqfLayout

/-- A reader of tokens; its state is the tokens that remain. -/
abbrev TokenReader := EStateM Violation (List Token)

namespace TokenReader

/-- A stream ends in a token for its end. One that lacks it gets it at the place of its last
token. -/
def complete (tokens : List Token) : List Token :=
  match tokens.getLast? with
  | none => [Token.eos Position.start]
  | some t => if t.kind = .eos then tokens else tokens ++ [Token.eos t.position]

/-- The next of the remaining tokens. -/
def next (s : List Token) : Token := s.head?.getD (Token.eos Position.start)

/-- How many of the tokens lie before those that remain. -/
def place (whole s : List Token) : Nat := whole.length - s.length

/-- The token at a place; beyond the last token there is only the last one. -/
def ahead (i : Nat) (tokens : List Token) : Token :=
  tokens[i]?.getD (tokens.getLast?.getD (Token.eos Position.start))

/-- A machine word added to a place. Where the sum is none, a build that checks sums stops, and one that
does not starts again from zero. -/
def sum? (checked : Bool) (m : Nat) (n : USize) : Option Nat :=
  if m + n.toNat < USize.size then some (m + n.toNat)
  else if checked then none
  else some ((m + n.toNat) % USize.size)

/-- The token `n` places ahead of those that remain. The place is summed up first and only then kept
within the whole; there is no token if the sum stops. -/
def peek? (checked : Bool) (whole : List Token) (n : USize) (s : List Token) : Option Token :=
  (sum? checked (place whole s) n).map fun i => ahead i whole

/-- What remains after the next token. The end of the stream stays. -/
def after : List Token → List Token
  | [] => []
  | t :: rest => if t.kind = .eos then t :: rest else rest

/-- A violation at the next token. -/
def violationAt (problem : Problem) (s : List Token) : Violation := ⟨problem, (next s).position⟩

/-- Takes the next token, whatever it is. -/
def take : TokenReader Token := fun s => .ok (next s) (after s)

/-- Takes the next token if it is of the kind. -/
def expect (kind : Token.Kind) (hint : Option Hint) : TokenReader Token := fun s =>
  if (next s).kind = kind then take s
  else .error (violationAt (.mismatch kind (next s) hint) s) s

/-- Takes a token that is required for no further reason. -/
def need (kind : Token.Kind) : TokenReader Token := expect kind none

/-- Fails at the next token. -/
def reject {α : Type} (problem : Problem) : TokenReader α := fun s =>
  .error (violationAt problem s) s

def skipSpaces (s : List Token) : List Token := s.dropWhile (·.kind = .space)

/-- Skips blanks and the layout of lines. -/
def skipLayout (s : List Token) : List Token :=
  s.dropWhile fun t => t.kind = .space || t.kind.isLayout

theorem length_skipSpaces_le (s : List Token) : (skipSpaces s).length ≤ s.length :=
  (List.dropWhile_suffix _).length_le

theorem length_skipLayout_le (s : List Token) : (skipLayout s).length ≤ s.length :=
  (List.dropWhile_suffix _).length_le

end TokenReader
end SqfLayout
