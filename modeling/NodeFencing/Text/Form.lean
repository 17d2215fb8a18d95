/-
Form-encoded text and the pairs of a query.

A text is written by its UTF-8 bytes: letters, digits and `* - . _` stand for
themselves, a space is a plus sign, and every other byte is a percent sign with two
upper-case digits.  `decode` reads what `encode` writes.  A query is a run of
`&name=value`, the ampersand standing before every pair; neither sign survives in an
encoded text, so the pairs can be told apart again.
-/
import NodeFencing.Text.Hex
import NodeFencing.Text.Utf8

namespace NodeFencing.Form

/-- Whether a byte stands for itself. -/
def isPlain (b : UInt8) : Bool :=
  (0x30 ≤ b && b ≤ 0x39) || (0x41 ≤ b && b ≤ 0x5A) || (0x61 ≤ b && b ≤ 0x7A) ||
    b == 0x2A || b == 0x2D || b == 0x2E || b == 0x5F

/-- How one byte is written. -/
def encodeByte (b : UInt8) : List Char :=
  if isPlain b then [Char.ofNat b.toNat]
  else if b = 0x20 then ['+']
  else ['%', Hex.upper (b.toNat / 16), Hex.upper (b.toNat % 16)]

/-- How characters are written. -/
def encodeChars (cs : List Char) : List Char := (Utf8.encode cs).flatMap encodeByte

/-- How a text is written. -/
def encode (s : String) : String := String.ofList (encodeChars s.toList)

/-- The bytes that a written text stands for. -/
def bytes? : List Char → Option (List UInt8)
  | [] => some []
  | '+' :: rest => (0x20 :: ·) <$> bytes? rest
  | '%' :: a :: b :: rest => do
    let x ← Hex.value? a
    let y ← Hex.value? b
    (UInt8.ofNat (x * 16 + y) :: ·) <$> bytes? rest
  | c :: rest => if c.toNat < 0x80 then (UInt8.ofNat c.toNat :: ·) <$> bytes? rest else none

/-- The text that a written text stands for. -/
def decode (cs : List Char) : Option String := do
  let bytes ← bytes? cs
  (Utf8.decode bytes).toOption

end NodeFencing.Form

namespace NodeFencing

/-- The pairs of a query, in order. -/
abbrev Query := List (String × String)

namespace Query

/-- One pair as it is written. -/
def pairChars (p : String × String) : List Char :=
  '&' :: Form.encodeChars p.1.toList ++ '=' :: Form.encodeChars p.2.toList

/-- A query as it is written, every pair after an ampersand. -/
def chars (q : Query) : List Char := q.flatMap pairChars

/-- A query as it is written. -/
def render (q : Query) : String := String.ofList (chars q)

/-- Splits at every ampersand. -/
def pieces : List Char → List (List Char)
  | [] => [[]]
  | '&' :: rest => [] :: pieces rest
  | c :: rest =>
    match pieces rest with
    | [] => [[c]]
    | piece :: more => (c :: piece) :: more

/-- The pair of one piece, split at the first equals sign. -/
def pair? (piece : List Char) : Option (String × String) := do
  let name ← Form.decode (piece.takeWhile (· ≠ '='))
  let value ← Form.decode ((piece.dropWhile (· ≠ '=')).drop 1)
  return (name, value)

/-- The pairs of a written query; pieces without a character are passed over. -/
def parse (cs : List Char) : Option Query :=
  ((pieces cs).filter (fun piece => !piece.isEmpty)).mapM pair?

end Query

end NodeFencing
