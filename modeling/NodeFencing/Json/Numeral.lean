/-
Numbers as they are written.

A numeral is a sign, digits, and perhaps a fraction and an exponent.  Which number it stands for
is decided elsewhere: a whole one by its digits, and any other by the rounding of floats.
-/

namespace NodeFencing.Json

/-! ### Digits -/

/-- The digit of a number below ten. -/
def digit (n : Nat) : Char := Char.ofNat (0x30 + n)

/-- A natural number in decimal. -/
def decimal (n : Nat) : List Char :=
  if n < 10 then [digit n] else decimal (n / 10) ++ [digit (n % 10)]
termination_by n

/-- A natural number as a text in decimal. -/
def decimalText (n : Nat) : String := String.ofList (decimal n)

/-- The number that a digit stands for. -/
def digitValue (c : Char) : Nat := c.toNat - 0x30

/-- The number that decimal digits stand for. -/
def readDigits (ds : List Char) : Nat := ds.foldl (fun n c => n * 10 + digitValue c) 0

/-! ### Numerals -/

/-- A number as it is written; of an exponent it says whether it is negative. -/
structure Numeral where
  negative : Bool
  whole : List Char
  fraction : Option (List Char)
  exponent : Option (Bool × List Char)
deriving DecidableEq, Repr, Inhabited

namespace Numeral

/-- A sign, if there is one. -/
def signChars (negative : Bool) : List Char := if negative then ['-'] else []

/-- The characters of a fraction. -/
def fractionChars : Option (List Char) → List Char
  | none => []
  | some ds => '.' :: ds

/-- The characters of an exponent, without a sign that it does not need. -/
def exponentChars : Option (Bool × List Char) → List Char
  | none => []
  | some (negative, ds) => 'e' :: (signChars negative ++ ds)

/-- The characters of a numeral. -/
def chars (n : Numeral) : List Char :=
  signChars n.negative ++ (n.whole ++ (fractionChars n.fraction ++ exponentChars n.exponent))

/-- The numeral of a whole number. -/
def ofInt (n : Int) : Numeral := ⟨n < 0, decimal n.natAbs, none, none⟩

/-- The whole number that is written; a fraction, an exponent or a negative zero makes none. -/
def int? (n : Numeral) : Option Int :=
  match n.fraction, n.exponent with
  | none, none =>
    let m := readDigits n.whole
    if n.negative then (if m = 0 then none else some (-(m : Int))) else some m
  | _, _ => none

/-- The exponent that is written; without one it is zero. -/
def exponentValue (n : Numeral) : Int :=
  match n.exponent with
  | none => 0
  | some (negative, ds) => if negative then -(readDigits ds : Int) else readDigits ds

end Numeral

end NodeFencing.Json
