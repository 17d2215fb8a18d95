/-
Finite 64-bit floats, how they are read from numerals and how they are written.

A finite float is a sign and the number that its other bits make, so that floats follow each
other as these numbers do.  All arithmetic is exact arithmetic on fractions and a rounding to the
nearest float, ties to the even one.

A numeral is read in the way that is fast, not the one that is exact: of its digits as many are
taken as make a number of 64 bits, this is rounded, and the outcome is multiplied or divided by a
power of ten, which is rounded again.  So what is read is not always the float nearest to the
numeral, and a float that was written need not be read back.
-/
import NodeFencing.Decimal.Layout

namespace NodeFencing.Decimal

/-- The number that the bits of infinity make. -/
def infinityBits : Nat := 2047 * Nat.pow 2 52

/-- A finite 64-bit float without its sign: the number that its bits make. -/
abbrev Absolute := Fin infinityBits

namespace Absolute

/-- Zero. -/
def zero : Absolute := ⟨0, by decide⟩

/-- The significand as a whole number. -/
def significand (x : Absolute) : Nat :=
  if x.val < Nat.pow 2 52 then x.val else Nat.pow 2 52 + x.val % Nat.pow 2 52

/-- The power of two that the significand is to be multiplied with. -/
def exponent (x : Absolute) : Int := (max (x.val / Nat.pow 2 52) 1 : Nat) - 1075

/-- The value as a fraction. -/
def fraction (x : Absolute) : Nat × Nat :=
  (x.significand * Nat.pow 2 x.exponent.toNat, Nat.pow 2 (-x.exponent).toNat)

/-- The greatest power of two, as its exponent, that is not above a positive fraction. -/
def binade (num den : Nat) : Int :=
  let k : Int := (Nat.log2 num : Int) - Nat.log2 den
  if den * Nat.pow 2 k.toNat ≤ num * Nat.pow 2 (-k).toNat then k else k - 1

/-- The float nearest to a fraction, the even one of two; none if that is infinity. -/
def nearest? (num den : Nat) : Option Absolute :=
  if num = 0 then some zero
  else
    let e := max (binade num den - 52) (-1074)
    let n := num * Nat.pow 2 (-e).toNat
    let d := den * Nat.pow 2 e.toNat
    let rest := n % d
    let steps := if 2 * rest < d ∨ (2 * rest = d ∧ n / d % 2 = 0) then n / d else n / d + 1
    let bits := (e + 1074).toNat * Nat.pow 2 52 + steps
    if h : bits < infinityBits then some ⟨bits, h⟩ else none

/-- The rounded product. -/
def times? (x y : Absolute) : Option Absolute :=
  nearest? (x.fraction.1 * y.fraction.1) (x.fraction.2 * y.fraction.2)

/-- The rounded quotient. -/
def over? (x y : Absolute) : Option Absolute :=
  nearest? (x.fraction.1 * y.fraction.2) (x.fraction.2 * y.fraction.1)

/-- Ten to a power of at most 308, rounded. -/
def powerOfTen (k : Nat) : Absolute := (nearest? (Nat.pow 10 k) 1).getD zero

/-- A float divided by ten to the 308 so many times, and then once by a lower power of ten. -/
def lowered? (last : Nat) : Nat → Absolute → Option Absolute
  | 0, x => x.over? (powerOfTen last)
  | n + 1, x =>
    if x = zero then some zero else (x.over? (powerOfTen 308)).bind (lowered? last n)

/-- A number times a power of ten, as it is read. -/
def scaled? (n : Nat) (exponent : Int) : Option Absolute :=
  (nearest? n 1).bind fun x =>
    if exponent < 0 then
      let k := (-exponent).toNat
      let times := (k - 1) / 308
      lowered? (k - 308 * times) times x
    else if exponent ≤ 308 then x.times? (powerOfTen exponent.toNat)
    else if x = zero then some zero
    else none

/-- The reals that round to a float that is not zero. -/
def interval (x : Absolute) : Interval :=
  .ofBinary x.significand x.exponent
    (x.val % Nat.pow 2 52 == 0 && 1 < x.val / Nat.pow 2 52)

/-- The fewest digits that round to a float, and of these the nearest. -/
def digits (x : Absolute) : Digits := if x = zero then ⟨0, 0⟩ else x.interval.shortest

end Absolute

/-- A finite 64-bit float. -/
structure Binary where
  negative : Bool
  absolute : Absolute
deriving DecidableEq, Repr

namespace Binary

instance : Inhabited Binary := ⟨⟨false, .zero⟩⟩

/-! ### Reading -/

/-- The digits at the front that make a number of 64 bits with one that was read before, and the
digits that are left. -/
def wordDigits : Nat → List Char → Nat × List Char
  | n, [] => (n, [])
  | n, c :: cs =>
    let next := n * 10 + Json.digitValue c
    if next < Nat.pow 2 64 then wordDigits next cs else (n, c :: cs)

/-- The float that a numeral is read as; none if it is too large. -/
def ofNumeral? (n : Json.Numeral) : Option Binary :=
  let fraction := n.fraction.getD []
  let (word, wholeRest) := wordDigits 0 n.whole
  let (word, fractionRest) := wordDigits word fraction
  let exponent := n.exponentValue + wholeRest.length - (fraction.length - fractionRest.length : Nat)
  (Absolute.scaled? word exponent).map fun x => ⟨n.negative, x⟩

/-! ### Writing -/

/-- The numeral of a float in a layout. -/
def numeral (f : Layout) (x : Binary) : Json.Numeral := f.numeral x.negative x.absolute.digits

end Binary

/-- What a float is. -/
inductive Parts where
  | nan
  | infinite (negative : Bool)
  | finite (x : Binary)

/-- Takes a float apart. -/
def Parts.ofFloat (x : Float) : Parts :=
  let bits := x.toBits.toNat
  let negative := bits / Nat.pow 2 63 == 1
  let absolute := bits % Nat.pow 2 63
  if h : absolute < infinityBits then .finite ⟨negative, absolute, h⟩
  else if absolute = infinityBits then .infinite negative
  else .nan

/-- A float in a layout. -/
def Layout.write (f : Layout) (x : Float) : String :=
  match Parts.ofFloat x with
  | .nan => f.nan
  | .infinite negative =>
    String.ofList (Json.Numeral.signChars negative ++ f.infinity.toList)
  | .finite x => String.ofList (x.numeral f).chars

end NodeFencing.Decimal
