/-
Reading UTF-8.

`decode` turns bytes into characters or says where the bytes stop being UTF-8.  A
sequence is rejected at its first byte, with the number of bytes that belong
together up to the one that does not fit; a sequence that the end of the input cuts
short is told apart from one that is wrong.  Overlong forms, surrogates and numbers
past the last code point are ruled out by the range of the second byte.
-/

namespace NodeFencing.Utf8

/-- Why bytes are not UTF-8. -/
inductive Fault where
  /-- The bytes from `index` on cannot be continued after `length` of them. -/
  | invalid (length index : Nat)
  /-- The input ends inside the sequence that starts at `index`. -/
  | incomplete (index : Nat)
deriving DecidableEq, Repr

/-- The wording of a fault. -/
def Fault.message : Fault → String
  | .invalid length index => s!"invalid utf-8 sequence of {length} bytes from index {index}"
  | .incomplete index => s!"incomplete utf-8 byte sequence from index {index}"

/-- What a first byte announces: how many bytes follow, and the range of the first of them. -/
structure Lead where
  following : Nat
  low : UInt8
  high : UInt8
deriving DecidableEq, Repr

/-- The announcement of a byte that starts a longer sequence. -/
def Lead.of? (a : UInt8) : Option Lead :=
  if a < 0xC2 then none
  else if a < 0xE0 then some ⟨1, 0x80, 0xBF⟩
  else if a = 0xE0 then some ⟨2, 0xA0, 0xBF⟩
  else if a = 0xED then some ⟨2, 0x80, 0x9F⟩
  else if a < 0xF0 then some ⟨2, 0x80, 0xBF⟩
  else if a = 0xF0 then some ⟨3, 0x90, 0xBF⟩
  else if a < 0xF4 then some ⟨3, 0x80, 0xBF⟩
  else if a = 0xF4 then some ⟨3, 0x80, 0x8F⟩
  else none

/-- Whether a byte continues a sequence. -/
def continues (b : UInt8) : Bool := 0x80 ≤ b && b ≤ 0xBF

/-- The six bits of a continuing byte. -/
def payload (b : UInt8) : Nat := b.toNat % 64

/-- The characters of the bytes, the first of which stands at index `i`. -/
def decodeFrom : Nat → List UInt8 → Except Fault (List Char)
  | _, [] => .ok []
  | i, a :: rest =>
    if a < 0x80 then (Char.ofNat a.toNat :: ·) <$> decodeFrom (i + 1) rest
    else
      match Lead.of? a, rest with
      | none, _ => .error (.invalid 1 i)
      | some _, [] => .error (.incomplete i)
      | some lead, b :: rest =>
        if b < lead.low || lead.high < b then .error (.invalid 1 i)
        else if lead.following = 1 then
          (Char.ofNat (a.toNat % 32 * 64 + payload b) :: ·) <$> decodeFrom (i + 2) rest
        else
          match rest with
          | [] => .error (.incomplete i)
          | c :: rest =>
            if !continues c then .error (.invalid 2 i)
            else if lead.following = 2 then
              (Char.ofNat ((a.toNat % 16 * 64 + payload b) * 64 + payload c) :: ·) <$>
                decodeFrom (i + 3) rest
            else
              match rest with
              | [] => .error (.incomplete i)
              | d :: rest =>
                if !continues d then .error (.invalid 3 i)
                else
                  (Char.ofNat
                      (((a.toNat % 8 * 64 + payload b) * 64 + payload c) * 64 + payload d) :: ·) <$>
                    decodeFrom (i + 4) rest

/-- The text that the bytes are, or the first place where they are none. -/
def decode (bytes : List UInt8) : Except Fault String :=
  String.ofList <$> decodeFrom 0 bytes

/-- The bytes of characters. -/
def encode (cs : List Char) : List UInt8 := cs.flatMap String.utf8EncodeChar

end NodeFencing.Utf8
