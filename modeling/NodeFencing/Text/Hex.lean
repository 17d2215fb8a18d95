/-
Hexadecimal digits.

Digits are written from a table and read back in either case.
-/

namespace NodeFencing.Hex

/-- The digit of a number below sixteen, in lower case. -/
def lower (n : Nat) : Char :=
  if n < 10 then Char.ofNat (0x30 + n) else Char.ofNat (0x57 + n)

/-- The digit of a number below sixteen, in upper case. -/
def upper (n : Nat) : Char :=
  if n < 10 then Char.ofNat (0x30 + n) else Char.ofNat (0x37 + n)

/-- The number that a digit of either case stands for. -/
def value? (c : Char) : Option Nat :=
  if '0' ≤ c ∧ c ≤ '9' then some (c.toNat - 0x30)
  else if 'a' ≤ c ∧ c ≤ 'f' then some (c.toNat - 0x57)
  else if 'A' ≤ c ∧ c ≤ 'F' then some (c.toNat - 0x37)
  else none

theorem value?_upper {n : Nat} (h : n < 16) : value? (upper n) = some n := by
  have : ∀ m : Fin 16, value? (upper m.val) = some m.val := by decide
  exact this ⟨n, h⟩

/-- The number that four digits stand for. -/
def four? (a b c d : Char) : Option Nat := do
  let w ← value? a
  let x ← value? b
  let y ← value? c
  let z ← value? d
  return ((w * 16 + x) * 16 + y) * 16 + z

/-- A number in lower-case digits, without leading zeros. -/
def digits (n : Nat) : List Char :=
  if n < 16 then [lower n] else digits (n / 16) ++ [lower (n % 16)]
termination_by n

end NodeFencing.Hex
