import SqfLayout.Text

/-! The shortest decimal that reads back as a given binary floating-point number. -/
namespace SqfLayout.Decimal

/-- The number of decimal digits. -/
def digitCount (n : Nat) : Nat := (Nat.toDigits 10 n).length

/-- The quotient of two numbers scaled by a power of ten, as a fraction of natural numbers. -/
def scaled (m : Nat) (q : Int) (k : Int) : Nat × Nat :=
  let two := if 0 ≤ q then (m * Nat.pow 2 q.toNat, 1) else (m, Nat.pow 2 (-q).toNat)
  if 0 ≤ k then (two.1, two.2 * Nat.pow 10 k.toNat) else (two.1 * Nat.pow 10 (-k).toNat, two.2)

/-- The multiples of `10 ^ k` next to `m * 2 ^ q` that lie in the interval of numbers which are read
as it; the nearer one first. The interval is given in quarters of a unit in the last place and holds
its ends if `m` is even. -/
def candidates (m : Nat) (q : Int) (low : Nat) (k : Int) : List Nat :=
  let (num, den) := scaled (4 * m) (q - 2) k
  let (lowNum, _) := scaled (4 * m - low) (q - 2) k
  let (highNum, _) := scaled (4 * m + 2) (q - 2) k
  let floor := num / den
  let inside (d : Nat) : Bool :=
    if m % 2 = 0 then decide (lowNum ≤ d * den) && decide (d * den ≤ highNum)
    else decide (lowNum < d * den) && decide (d * den < highNum)
  let below := num - floor * den
  let above := (floor + 1) * den - num
  let ordered :=
    if below < above ∨ below = above ∧ floor % 2 = 0 then [floor, floor + 1]
    else [floor + 1, floor]
  ordered.filter fun d => decide (0 < d) && inside d

/-- Tries one digit more each time. -/
def shortestFrom (m : Nat) (q : Int) (low : Nat) (top : Int) : Nat → Nat → Nat × Int
  | 0, _ => (m, q)
  | tries + 1, digits =>
    let k := top - digits
    match candidates m q low k with
    | d :: _ => (d, k)
    | [] => shortestFrom m q low top tries (digits + 1)

/-- The shortest decimal, as an integer and a power of ten, of the positive number `m * 2 ^ q`; `low`
tells how many quarters of a unit below it the numbers start that are read as it. -/
def shortest (m : Nat) (q : Int) (low : Nat) : Nat × Int :=
  let (num, den) := scaled m q 0
  let top : Int :=
    if den ≤ num then digitCount (num / den)
    else 1 - (digitCount (den / num) : Int)
  let (d, k) := shortestFrom m q low (top + 1) 18 1
  dropZeros d k 20
where
  /-- Moves zeros at the end into the exponent. -/
  dropZeros (d : Nat) (k : Int) : Nat → Nat × Int
    | 0 => (d, k)
    | tries + 1 => if 0 < d ∧ d % 10 = 0 then dropZeros (d / 10) (k + 1) tries else (d, k)

/-- A decimal is written out with a point unless it is very large or very small; then it has an
exponent with its sign. -/
def render (d : Nat) (k : Int) : Text :=
  let digits := Text.ofNat d
  let point := digits.length + k
  if 0 ≤ k ∧ point ≤ 16 then digits ++ List.replicate k.toNat '0' ++ ".0"
  else if 0 < point ∧ point ≤ 16 then
    digits.take point.toNat ++ "." ++ digits.drop point.toNat
  else if -5 < point ∧ point ≤ 0 then
    "0." ++ List.replicate (-point).toNat '0' ++ digits
  else
    let mark : Text := if digits.length = 1 then digits else digits.take 1 ++ "." ++ digits.drop 1
    let power := point - 1
    mark ++ "e" ++ (if power < 0 then "-" else "+") ++ Text.ofNat power.natAbs

/-- The text of a finite number. -/
def ofFloat (x : Float) : Text :=
  let bits : Nat := x.toBits.toNat
  let exponent : Nat := bits / Nat.pow 2 52 % Nat.pow 2 11
  let fraction : Nat := bits % Nat.pow 2 52
  let sign : Text := if bits / Nat.pow 2 63 = 1 then "-" else ""
  if exponent = 0 ∧ fraction = 0 then sign ++ "0.0"
  else if exponent = 0 then sign ++ write (shortest fraction (-1074) 2)
  else
    let low := if fraction = 0 ∧ 1 < exponent then 1 else 2
    sign ++ write (shortest (Nat.pow 2 52 + fraction) ((exponent : Int) - 1075) low)
where
  write (decimal : Nat × Int) : Text := render decimal.1 decimal.2

end SqfLayout.Decimal
