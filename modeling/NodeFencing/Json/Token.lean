/-
The tokens of a JSON text.

`tokens` cuts a text into punctuation, words, numbers and quoted texts and leaves the
blanks out.  It never fails: where the text stops making sense the last token says so.

A reader may want a token's value or only step over it, and the two are not equally
strict.  A quoted text that is wanted has to name Unicode characters, one that is
stepped over may escape half of a surrogate pair; and a number that the input cuts
short is a truncated text to one and a malformed one to the other.  So a broken
token holds both faults, and a quoted text holds its value or the fault that the value has.
-/
import NodeFencing.Json.Value

namespace NodeFencing.Json

/-- Why a text is refused. -/
inductive Fault where
  /-- The text is JSON so far, but not of the wanted shape. -/
  | mismatched
  /-- The text is not JSON. -/
  | malformed
  /-- The text ends too early. -/
  | truncated
deriving DecidableEq, Repr, Inhabited

/-- The wording of a fault. -/
def Fault.message : Fault → String
  | .mismatched => "the value does not have the expected shape"
  | .malformed => "the text is not JSON"
  | .truncated => "the text ends too early"

/-- The faults of a place where a text breaks off: to a reader who wants what stands there, and
to one who steps over it. -/
structure Break where
  wanted : Fault
  skipped : Fault
deriving DecidableEq, Repr, Inhabited

/-- A place that is at fault for every reader. -/
def Break.both (f : Fault) : Break := ⟨f, f⟩

/-- A token of a JSON text. -/
inductive Token where
  | openObject
  | closeObject
  | openArray
  | closeArray
  | colon
  | comma
  | null
  | bool (b : Bool)
  | number (n : Numeral)
  | text (value : Except Fault String)
  /-- A quoted text that does not end as it should. -/
  | brokenText (b : Break)
  /-- A word or number that does not end as it should, or no token at all. -/
  | broken (b : Break)

/-! ### Numbers -/

/-- What a numeral is read as: a whole number if it is written as one and has 64 bits, with a sign
or without, and otherwise a float; none if it is too large for one. -/
def Numeral.value? (n : Numeral) : Option Json :=
  match n.int? with
  | some i =>
    if -9223372036854775808 ≤ i ∧ i ≤ 18446744073709551615 then some (.int i)
    else (Decimal.Binary.ofNumeral? n).map .float
  | none => (Decimal.Binary.ofNumeral? n).map .float

/-- The faults of a number that stops before a digit it needs. -/
def digitMissing (rest : List Char) : Break :=
  if rest.isEmpty then ⟨.truncated, .malformed⟩ else .both .malformed

/-- The exponent at the front of a text, if one begins there. -/
def readExponent (cs : List Char) : Except Break (Option (Bool × List Char) × List Char) :=
  match cs with
  | [] => .ok (none, [])
  | c :: rest =>
    if c = 'e' ∨ c = 'E' then
      let negative := rest.head? = some '-'
      let rest := if rest.head? = some '-' ∨ rest.head? = some '+' then rest.drop 1 else rest
      match rest.takeWhile Char.isDigit with
      | [] => .error (digitMissing rest)
      | ds => .ok (some (negative, ds), rest.dropWhile Char.isDigit)
    else .ok (none, cs)

/-- The fraction at the front of a text, if one begins there. -/
def readFraction (cs : List Char) : Except Break (Option (List Char) × List Char) :=
  match cs with
  | '.' :: rest =>
    match rest.takeWhile Char.isDigit with
    | [] => .error (digitMissing rest)
    | ds => .ok (some ds, rest.dropWhile Char.isDigit)
  | _ => .ok (none, cs)

/-- The digits before the point: a zero alone, or digits that do not begin with one. -/
def readWhole (cs : List Char) : Except Break (List Char × List Char) :=
  match cs with
  | [] => .error ⟨.truncated, .malformed⟩
  | '0' :: rest =>
    if (rest.head?.map Char.isDigit).getD false then .error (.both .malformed)
    else .ok (['0'], rest)
  | c :: rest =>
    if c.isDigit then .ok (c :: rest.takeWhile Char.isDigit, rest.dropWhile Char.isDigit)
    else .error (.both .malformed)

/-- The number at the front of a text, and what follows it. -/
def readNumber (cs : List Char) : Except Break (Numeral × List Char) := do
  let (whole, afterWhole) ← readWhole (if cs.head? = some '-' then cs.drop 1 else cs)
  let (fraction, afterFraction) ← readFraction afterWhole
  let (exponent, rest) ← readExponent afterFraction
  return (⟨cs.head? = some '-', whole, fraction, exponent⟩, rest)

/-! ### Quoted texts -/

/-- A part of a quoted text: a character, or a 16-bit unit written by its number. -/
inductive Piece where
  | plain (c : Char)
  | unit (n : Nat)
deriving DecidableEq, Repr

/-- The character that a one-letter escape stands for. -/
def readEscape (c : Char) : Option Char :=
  match c with
  | '"' => some '"'
  | '\\' => some '\\'
  | '/' => some '/'
  | 'b' => some '\x08'
  | 'f' => some '\x0c'
  | 'n' => some '\n'
  | 'r' => some '\r'
  | 't' => some '\t'
  | _ => none

/-- The pieces up to the closing quote, and what follows it or why there is no closing quote. -/
def pieces : List Char → List Piece × Except Fault (List Char)
  | [] => ([], .error .truncated)
  | '"' :: rest => ([], .ok rest)
  | ['\\'] => ([], .error .truncated)
  | '\\' :: 'u' :: a :: b :: c :: d :: rest =>
    match Hex.four? a b c d with
    | none => ([], .error .malformed)
    | some n => let (ps, after) := pieces rest; (.unit n :: ps, after)
  | '\\' :: 'u' :: rest =>
    ([], .error (if (String.ofList rest).utf8ByteSize < 4 then .truncated else .malformed))
  | '\\' :: c :: rest =>
    match readEscape c with
    | none => ([], .error .malformed)
    | some c => let (ps, after) := pieces rest; (.plain c :: ps, after)
  | c :: rest =>
    if c.toNat < 0x20 then ([], .error .malformed)
    else let (ps, after) := pieces rest; (.plain c :: ps, after)

/-- Whether a unit is the first half of a pair. -/
def isHighHalf (n : Nat) : Bool := 0xD800 ≤ n && n < 0xDC00

/-- Whether a unit is the second half of a pair. -/
def isLowHalf (n : Nat) : Bool := 0xDC00 ≤ n && n < 0xE000

/-- The characters of pieces whose text ends there, or breaks off there with a fault. -/
def assemble (breaks : Option Fault) : List Piece → Except Fault (List Char)
  | [] => match breaks with
    | none => .ok []
    | some f => .error f
  | .plain c :: rest => (c :: ·) <$> assemble breaks rest
  | .unit n :: rest =>
    if isLowHalf n then .error .malformed
    else if isHighHalf n then
      match rest with
      | .unit m :: rest =>
        if isLowHalf m then
          (Char.ofNat (0x10000 + (n - 0xD800) * 0x400 + (m - 0xDC00)) :: ·) <$>
            assemble breaks rest
        else .error .malformed
      | [] => .error (breaks.getD .malformed)
      | _ => .error .malformed
    else (Char.ofNat n :: ·) <$> assemble breaks rest

/-- The token of pieces whose text breaks off with a fault. -/
def brokenToken (ps : List Piece) (f : Fault) : Token :=
  match assemble (some f) ps with
  | .ok _ => .brokenText (.both f)
  | .error wanted => .brokenText ⟨wanted, f⟩

/-! ### Words -/

/-- What follows a word whose other letters are given. -/
def readWord : List Char → List Char → Except Fault (List Char)
  | [], rest => .ok rest
  | _ :: _, [] => .error .truncated
  | w :: ws, c :: rest => if c = w then readWord ws rest else .error .malformed

/-! ### The text as a whole -/

/-- Whether a character may stand between tokens. -/
def isSpace (c : Char) : Bool := c = ' ' || c = '\n' || c = '\t' || c = '\r'

/-- The token at the front of a text that begins with no blank, and what follows it. -/
def step (c : Char) (rest : List Char) : Token × List Char :=
  let word (letters : List Char) (token : Token) : Token × List Char :=
    match readWord letters rest with
    | .ok rest => (token, rest)
    | .error f => (.broken (.both f), [])
  match c with
  | '\x7b' => (.openObject, rest)
  | '\x7d' => (.closeObject, rest)
  | '[' => (.openArray, rest)
  | ']' => (.closeArray, rest)
  | ':' => (.colon, rest)
  | ',' => (.comma, rest)
  | 'n' => word ['u', 'l', 'l'] .null
  | 't' => word ['r', 'u', 'e'] (.bool true)
  | 'f' => word ['a', 'l', 's', 'e'] (.bool false)
  | '"' =>
    match pieces rest with
    | (ps, .ok rest) => (.text (String.ofList <$> assemble none ps), rest)
    | (ps, .error f) => (brokenToken ps f, [])
  | c =>
    if c = '-' ∨ c.isDigit then
      match readNumber (c :: rest) with
      | .ok (n, rest) => (.number n, rest)
      | .error b => (.broken b, [])
    else (.broken (.both .malformed), [])

/-! ### Every token takes a character -/

theorem length_readWord {ws cs rest : List Char} (h : readWord ws cs = .ok rest) :
    rest.length ≤ cs.length := by
  induction ws generalizing cs with
  | nil => cases h; exact Nat.le_refl _
  | cons w ws ih =>
    cases cs with
    | nil => cases h
    | cons c cs =>
      simp only [readWord] at h
      split at h
      · exact Nat.le_succ_of_le (ih h)
      · cases h

theorem length_pieces (cs : List Char) {rest : List Char} (h : (pieces cs).2 = .ok rest) :
    rest.length ≤ cs.length := by
  fun_induction pieces cs <;> simp_all <;> omega

theorem length_dropWhile_le (p : Char → Bool) (cs : List Char) :
    (cs.dropWhile p).length ≤ cs.length := (List.dropWhile_sublist p).length_le

theorem length_readWhole {cs ds rest : List Char} (h : readWhole cs = .ok (ds, rest)) :
    rest.length < cs.length := by
  unfold readWhole at h
  split at h
  · cases h
  · split at h
    · cases h
    · cases h; simp
  · next c tail _ =>
    split at h
    · cases h
      exact Nat.lt_succ_of_le (length_dropWhile_le _ tail)
    · cases h

theorem length_readFraction {cs rest : List Char} {f : Option (List Char)}
    (h : readFraction cs = .ok (f, rest)) : rest.length ≤ cs.length := by
  unfold readFraction at h
  split at h
  · next tail =>
    split at h
    · cases h
    · cases h
      exact Nat.le_succ_of_le (length_dropWhile_le _ tail)
  · cases h; exact Nat.le_refl _

theorem length_readExponent {cs rest : List Char} {e : Option (Bool × List Char)}
    (h : readExponent cs = .ok (e, rest)) : rest.length ≤ cs.length := by
  unfold readExponent at h
  split at h
  · cases h; exact Nat.le_refl _
  · next c tail =>
    split at h
    · dsimp only at h
      split at h
      · cases h
      · cases h
        refine Nat.le_trans (length_dropWhile_le _ _) ?_
        split
        · simp; omega
        · simp
    · cases h; exact Nat.le_refl _

theorem length_readNumber {cs rest : List Char} {n : Numeral}
    (h : readNumber cs = .ok (n, rest)) : rest.length < cs.length := by
  unfold readNumber at h
  simp only [bind, Except.bind, pure, Except.pure] at h
  split at h
  · cases h
  · next w hw =>
    split at h
    · cases h
    · next f hf =>
      split at h
      · cases h
      · next e he =>
        cases h
        obtain ⟨ds, afterWhole⟩ := w
        obtain ⟨fraction, afterFraction⟩ := f
        obtain ⟨exponent, afterExponent⟩ := e
        have h1 := length_readWhole hw
        have h2 := length_readFraction hf
        have h3 := length_readExponent he
        have h4 : (if cs.head? = some '-' then cs.drop 1 else cs).length ≤ cs.length := by
          split <;> simp
        dsimp only at h1 h2 h3 ⊢
        omega

theorem length_step (c : Char) (cs : List Char) : (step c cs).2.length ≤ cs.length := by
  unfold step
  split <;> (try simp only [Nat.le_refl])
  · split
    · next h => exact length_readWord h
    · simp
  · split
    · next h => exact length_readWord h
    · simp
  · split
    · next h => exact length_readWord h
    · simp
  · split
    · next ps rest h => exact length_pieces cs (by rw [h])
    · simp
  · split
    · split
      · next h => exact Nat.le_of_lt_succ (length_readNumber h)
      · simp
    · simp

/-- The tokens of a text, blanks left out. -/
def tokens : List Char → List Token
  | [] => []
  | c :: rest =>
    if isSpace c then tokens rest
    else (step c rest).1 :: tokens (step c rest).2
termination_by cs => cs.length
decreasing_by
  · simp
  · exact Nat.lt_succ_of_le (length_step c rest)

end NodeFencing.Json
