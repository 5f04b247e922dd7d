import SqfLayout.Decimal
import SqfLayout.Json.Skip

/-! Numbers of JSON, read for the one purpose of naming them in a message. -/
namespace SqfLayout.Json

/-- A number as it is held: a natural number or a negative one of 64 bits, or a floating-point
number. -/
inductive Number
  | natural (n : Nat)
  | negative (n : Nat)
  | real (x : Float)

/-- The number in a message. -/
def Number.describe : Number → Text
  | .natural n => "integer `" ++ Text.ofNat n ++ "`"
  | .negative n => "integer `-" ++ Text.ofNat n ++ "`"
  | .real x => "floating point `" ++ Decimal.ofFloat x ++ "`"

/-- The largest significand that is held; further digits only move the point. -/
def maxSignificand : Nat := Nat.pow 2 64 - 1

/-- The number `x * 10 ^ exponent`, scaled in steps that powers of ten allow. Too large a
number has no value. -/
def scale (x : Float) (exponent : Int) : Option Float :=
  if exponent.natAbs ≤ 308 then
    if 0 ≤ exponent then
      let y := x * Float.ofScientific 1 false exponent.natAbs
      if y.isInf then none else some y
    else some (x / Float.ofScientific 1 false exponent.natAbs)
  else if x == 0 then some x
  else if 0 ≤ exponent then none
  else
    let y := x / Float.ofScientific 1 false 308
    if (exponent + 308).natAbs ≤ 308 then
      some (y / Float.ofScientific 1 false (exponent + 308).natAbs)
    else some (y / Float.ofScientific 1 false 308 / Float.ofScientific 1 false 308)

/-- A floating-point number from its parts, read up to the rest. -/
def real (negative : Bool) (significand : Nat) (exponent : Int) (rest : Text) :
    Except Fault (Number × Text) :=
  match scale significand.toFloat exponent with
  | none => .error (faultBefore .numberTooLarge rest)
  | some x => .ok (.real (if negative then -x else x), rest)

/-- Digits added to a significand while it can hold them, how many were added, and what follows
them. -/
def takeDigits (significand : Nat) : Text → Nat × Nat × Text
  | [] => (significand, 0, [])
  | c :: rest =>
    if c.isDigit ∧ significand * 10 + (c.toNat - '0'.toNat) ≤ maxSignificand then
      let (s, n, rest) := takeDigits (significand * 10 + (c.toNat - '0'.toNat)) rest
      (s, n + 1, rest)
    else (significand, 0, c :: rest)

/-- The largest exponent that is held. -/
def maxExponent : Nat := Nat.pow 2 31 - 1

/-- The digits of an exponent. Of too many the sign decides. -/
def exponentDigits (negative : Bool) (significand : Nat) (start : Int) (below : Bool) (e : Nat) :
    Text → Except Fault (Number × Text)
  | [] => real negative significand (if below then start - e else start + e) []
  | c :: rest =>
    if c.isDigit then
      if e * 10 + (c.toNat - '0'.toNat) ≤ maxExponent then
        exponentDigits negative significand start below (e * 10 + (c.toNat - '0'.toNat)) rest
      else if significand ≠ 0 ∧ !below then .error (faultBefore .numberTooLarge rest)
      else .ok (.real (if negative then -0.0 else 0.0), afterDigits rest)
    else real negative significand (if below then start - e else start + e) (c :: rest)

/-- An exponent, after its letter. -/
def exponent (negative : Bool) (significand : Nat) (start : Int) (s : Text) :
    Except Fault (Number × Text) :=
  let below := s.head? = some '-'
  let digits := if s.head?.any fun c => c == '+' || c == '-' then s.tail else s
  match digits with
  | [] => .error (faultBefore .endInValue [])
  | c :: rest =>
    if c.isDigit then
      exponentDigits negative significand start below (c.toNat - '0'.toNat) rest
    else .error (faultBehind .badNumber (c :: rest))

/-- An exponent, or the end of the number. -/
def exponent? (negative : Bool) (significand : Nat) (start : Int) (s : Text) :
    Except Fault (Number × Text) :=
  match s with
  | [] => real negative significand start []
  | c :: rest =>
    if c = 'e' ∨ c = 'E' then exponent negative significand start rest
    else real negative significand start (c :: rest)

/-- A fraction, after its point. -/
def fraction (negative : Bool) (significand : Nat) (start : Int) (s : Text) :
    Except Fault (Number × Text) :=
  let (value, count, rest) := takeDigits significand s
  if rest.head?.any Char.isDigit then
    exponent? negative value (start - count) (afterDigits rest)
  else if count = 0 then
    .error (match rest with
      | [] => faultBefore .endInValue []
      | _ => faultBehind .badNumber rest)
  else exponent? negative value (start - count) rest

/-- What follows the digits before a point. Digits that the significand could not hold count as
zeros. -/
def afterWhole (negative : Bool) (significand skipped : Nat) (s : Text) :
    Except Fault (Number × Text) :=
  let integer : Except Fault (Number × Text) :=
    if 0 < skipped then real negative significand skipped s
    else if !negative then .ok (.natural significand, s)
    else if 0 < significand ∧ significand ≤ Nat.pow 2 63 then .ok (.negative significand, s)
    else .ok (.real (-significand.toFloat), s)
  match s with
  | [] => integer
  | c :: rest =>
    if c = '.' then fraction negative significand skipped rest
    else if c = 'e' ∨ c = 'E' then exponent negative significand skipped rest
    else integer

/-- A number, after its sign. -/
def number (negative : Bool) (s : Text) : Except Fault (Number × Text) :=
  match s with
  | [] => .error (faultBefore .endInValue [])
  | c :: rest =>
    if c = '0' then
      if rest.head?.any Char.isDigit then .error (faultBehind .badNumber rest)
      else afterWhole negative 0 0 rest
    else if c.isDigit then
      let (value, _, more) := takeDigits 0 (c :: rest)
      afterWhole negative value (more.takeWhile Char.isDigit).length (afterDigits more)
    else .error (faultBehind .badNumber (c :: rest))

end SqfLayout.Json
