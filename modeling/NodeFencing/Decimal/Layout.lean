/-
How decimals are laid out.

A decimal is written positionally if the point falls inside its digits or not far from them, else
with an exponent.  A positional number has a point and at least one digit after it.
-/
import NodeFencing.Decimal.Shortest
import NodeFencing.Json.Numeral

namespace NodeFencing.Decimal

/-- Where positional notation ends, and how the values without digits are written. -/
structure Layout where
  /-- The most digits before the point. -/
  before : Int
  /-- The most zeros between the point and the first digit. -/
  after : Int
  nan : String
  infinity : String

/-- Zeros. -/
def zeros (n : Nat) : List Char := List.replicate n '0'

/-- The numeral of a decimal in a layout. -/
def Layout.numeral (f : Layout) (negative : Bool) (d : Digits) : Json.Numeral :=
  let ds := Json.decimal d.digits
  let point : Int := ds.length + d.exponent
  if d.digits = 0 then ⟨negative, ['0'], some ['0'], none⟩
  else if 0 ≤ d.exponent ∧ point ≤ f.before then
    ⟨negative, ds ++ zeros d.exponent.toNat, some ['0'], none⟩
  else if 0 < point ∧ point ≤ f.before then
    ⟨negative, ds.take point.toNat, some (ds.drop point.toNat), none⟩
  else if -f.after ≤ point ∧ point ≤ 0 then
    ⟨negative, ['0'], some (zeros (-point).toNat ++ ds), none⟩
  else
    let tail := ds.drop 1
    ⟨negative, ds.take 1, if tail.isEmpty then none else some tail,
      some (point - 1 < 0, Json.decimal (point - 1).natAbs)⟩

end NodeFencing.Decimal
