/-
The fewest decimal digits that read back to a 64-bit float.

A float stands for all reals that round to it, an interval around its value.  For one
digit, two, and so on up to seventeen, the two neighbours of the value among the
decimals of that many digits are tried: the first count with a neighbour in the
interval wins, and of two such neighbours the nearer one.  All of it is exact
arithmetic on natural numbers.
-/

namespace NodeFencing.Decimal

/-- A decimal: `digits * 10 ^ exponent`. -/
structure Digits where
  digits : Nat
  exponent : Int
deriving DecidableEq, Repr, Inhabited

/-- A positive value with the interval of the reals that round to it; all three over one
denominator. -/
structure Interval where
  low : Nat
  value : Nat
  high : Nat
  denominator : Nat
  /-- Whether the ends belong to the interval. -/
  closed : Bool
deriving DecidableEq, Repr, Inhabited

/-- The interval of the float `mantissa * 2 ^ exponent`; below a power of two the floats are
twice as dense, which `isPower` says. -/
def Interval.ofBinary (mantissa : Nat) (exponent : Int) (isPower : Bool) : Interval :=
  let up := Nat.pow 2 (exponent - 2).toNat
  { low := (4 * mantissa - (if isPower then 1 else 2)) * up
    value := 4 * mantissa * up
    high := (4 * mantissa + 2) * up
    denominator := Nat.pow 2 (2 - exponent).toNat
    closed := mantissa % 2 == 0 }

/-- Whether a fraction lies in the interval. -/
def Interval.contains (i : Interval) (num den : Nat) : Bool :=
  let x := num * i.denominator
  if i.closed then i.low * den ≤ x && x ≤ i.high * den
  else i.low * den < x && x < i.high * den

/-- Ten to a power, as a fraction. -/
def power (e : Int) : Nat × Nat := (Nat.pow 10 e.toNat, Nat.pow 10 (-e).toNat)

/-- Raises an exponent while the value is at least ten to it, at most so many times. -/
def raise (num den : Nat) : Nat → Int → Int
  | 0, k => k
  | fuel + 1, k =>
    let (p, q) := power k
    if p * den ≤ num * q then raise num den fuel (k + 1) else k

/-- The least exponent such that the value is below ten to it. -/
def magnitude (num den : Nat) : Int :=
  let bits : Int := (Nat.log2 num : Int) - Nat.log2 den
  raise num den 8 (bits * 30103 / 100000 - 2)

/-- The neighbour of the value among the multiples of ten to an exponent that lies in the
interval, the nearer one if both do. -/
def Interval.neighbour? (i : Interval) (exponent : Int) : Option Digits :=
  let (p, q) := power exponent
  let below := i.value * q / (i.denominator * p)
  let has (d : Nat) : Bool := i.contains (d * p) q
  let rest := i.value * q - below * (i.denominator * p)
  let nearer := if 2 * rest < i.denominator * p ∨
      (2 * rest = i.denominator * p ∧ below % 2 = 0) then below else below + 1
  if has below && has (below + 1) then some ⟨nearer, exponent⟩
  else if has below then some ⟨below, exponent⟩
  else if has (below + 1) then some ⟨below + 1, exponent⟩
  else none

/-- A decimal without zeros at its end, of which it has at most so many. -/
def Digits.strip : Nat → Digits → Digits
  | 0, d => d
  | fuel + 1, d =>
    if d.digits % 10 = 0 ∧ d.digits ≠ 0 then strip fuel ⟨d.digits / 10, d.exponent + 1⟩ else d

/-- The shortest decimal of an interval. -/
def Interval.shortest (i : Interval) : Digits :=
  let k := magnitude i.value i.denominator
  let tries := (List.range 17).map fun n : Nat => i.neighbour? (k - (n + 1))
  match tries.findSome? id with
  | some d => d.strip 18
  | none => ⟨i.value / i.denominator, 0⟩

end NodeFencing.Decimal
