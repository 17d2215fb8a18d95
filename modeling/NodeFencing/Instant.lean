/-
Instants of the calendar, to the nanosecond, in universal time.

In a field of an object an instant is written `YYYY-MM-DDTHH:MM:SSZ`, and what it has of a
second beyond that is lost.  Reading is more liberal: the letters may be small, blanks may
stand around the signs, a fraction of a second is kept, an offset from universal time is taken
off, and a year may have a sign and then more than four digits.  That the parts name a day of
the calendar is part of the type, so every instant has one written form; `read_chars` says
that this form reads back as the second in which the instant lies.
-/
import NodeFencing.Text.Blank

namespace NodeFencing

namespace Calendar

/-- Whether a year has a day more; the year before the first is year zero. -/
def isLeap (year : Int) : Bool :=
  (year % 4 == 0 && year % 100 != 0) || year % 400 == 0

/-- The number of days of a month. -/
def monthLength (year : Int) (month : Nat) : Nat :=
  if month = 2 then (if isLeap year then 29 else 28)
  else if month = 4 ∨ month = 6 ∨ month = 9 ∨ month = 11 then 30
  else 31

/-- Whether the parts name a day of the years that are counted. -/
def IsDay (year : Int) (month day : Nat) : Prop :=
  (-262143 ≤ year ∧ year ≤ 262142) ∧ (1 ≤ month ∧ month ≤ 12) ∧
    1 ≤ day ∧ day ≤ monthLength year month

instance (year : Int) (month day : Nat) : Decidable (IsDay year month day) :=
  inferInstanceAs (Decidable (_ ∧ _))

/-- The day after, as year, month and day. -/
def nextDay (year : Int) (month day : Nat) : Int × Nat × Nat :=
  if day < monthLength year month then (year, month, day + 1)
  else if month < 12 then (year, month + 1, 1)
  else (year + 1, 1, 1)

/-- The day before, as year, month and day. -/
def previousDay (year : Int) (month day : Nat) : Int × Nat × Nat :=
  if 1 < day then (year, month, day - 1)
  else if 1 < month then (year, month - 1, monthLength year (month - 1))
  else (year - 1, 12, 31)

end Calendar

/-- Whether the parts name an instant; the sixty-first second is a leap second. -/
def Instant.Valid (year : Int) (month day hour minute second nanosecond : Nat) : Prop :=
  Calendar.IsDay year month day ∧ hour ≤ 23 ∧ minute ≤ 59 ∧ second ≤ 60 ∧ nanosecond < 1000000000

instance (year : Int) (month day hour minute second nanosecond : Nat) :
    Decidable (Instant.Valid year month day hour minute second nanosecond) :=
  inferInstanceAs (Decidable (_ ∧ _))

/-- An instant of the calendar in universal time (`DateTime<Utc>`). -/
structure Instant where
  year : Int
  month : Nat
  day : Nat
  hour : Nat
  minute : Nat
  second : Nat
  nanosecond : Nat
  valid : Instant.Valid year month day hour minute second nanosecond
deriving DecidableEq

namespace Instant

instance : Inhabited Instant := ⟨⟨1970, 1, 1, 0, 0, 0, 0, by decide⟩⟩

/-- The second in which an instant lies. -/
def toSecond (t : Instant) : Instant :=
  { t with
    nanosecond := 0
    valid := ⟨t.valid.1, t.valid.2.1, t.valid.2.2.1, t.valid.2.2.2.1, by decide⟩ }

/-! ### Writing -/

/-- The last decimal digit of a number. -/
def digit (n : Nat) : Char := Char.ofNat (0x30 + n % 10)

/-- A number in two digits. -/
def two (n : Nat) : List Char := [digit (n / 10), digit n]

/-- A number in four digits. -/
def four (n : Nat) : List Char := [digit (n / 1000), digit (n / 100), digit (n / 10), digit n]

/-- A number of more than four digits in six or fewer. -/
def six (n : Nat) : List Char :=
  if n < 100000 then digit (n / 10000) :: four n
  else digit (n / 100000) :: digit (n / 10000) :: four n

/-- A year in four digits, or with a sign and at least four of them. -/
def yearChars (year : Int) : List Char :=
  if year < 0 then '-' :: (if -9999 ≤ year then four year.natAbs else six year.natAbs)
  else if year ≤ 9999 then four year.natAbs
  else '+' :: six year.natAbs

/-- The characters of an instant without those of the fraction of its second. -/
def clockChars (t : Instant) : List Char :=
  yearChars t.year ++ '-' :: two t.month ++ '-' :: two t.day ++ 'T' :: two t.hour ++
    ':' :: two t.minute ++ ':' :: two t.second

/-- The characters of the second in which an instant lies. -/
def chars (t : Instant) : List Char := t.clockChars ++ ['Z']

/-- An instant as it is written in a field of an object. -/
def text (t : Instant) : String := String.ofList t.chars

/-- The nine digits of the fraction of a second. -/
def fractionDigits (t : Instant) : List Char :=
  two (t.nanosecond / 10000000) ++ two (t.nanosecond / 100000) ++ two (t.nanosecond / 1000) ++
    two (t.nanosecond / 10) ++ [digit t.nanosecond]

/-- An instant as it is written to the millionth of a second. -/
def microText (t : Instant) : String :=
  String.ofList (t.clockChars ++ '.' :: t.fractionDigits.take 6 ++ ['Z'])

/-- An instant as it is stamped on what is told of a request, with as many digits of the fraction
as it needs. -/
def stamp (t : Instant) : String :=
  let digits := (t.fractionDigits.reverse.dropWhile (· == '0')).reverse
  String.ofList (t.clockChars ++ (if digits.isEmpty then [] else '.' :: digits) ++ ['Z'])

/-- A number that grows with time. -/
def serial (t : Instant) : Nat :=
  (((((t.year + 262143).toNat * 13 + t.month) * 32 + t.day) * 24 + t.hour) * 60 + t.minute) * 61 +
    t.second

/-! ### Reading -/

/-- The value of a decimal digit. -/
def digit? (c : Char) : Option Nat :=
  if '0' ≤ c ∧ c ≤ '9' then some (c.toNat - 0x30) else none

/-- Reads digits on to a number, at most as many as allowed. -/
def digitsOn : Nat → Nat → List Char → Nat × List Char
  | 0, n, cs => (n, cs)
  | _ + 1, n, [] => (n, [])
  | width + 1, n, c :: cs =>
    match digit? c with
    | some d => digitsOn width (n * 10 + d) cs
    | none => (n, c :: cs)

/-- Reads a number of at most the width after blanks. -/
def number? (width : Nat) (cs : List Char) : Option (Nat × List Char) :=
  match cs.dropWhile Text.isBlank with
  | [] => none
  | c :: rest =>
    if (digit? c).isSome then some (digitsOn width 0 (c :: rest)) else none

/-- Reads a year after blanks: up to four digits, or a sign and any number of digits. -/
def year? (cs : List Char) : Option (Int × List Char) :=
  match cs.dropWhile Text.isBlank with
  | [] => none
  | c :: rest =>
    if c = '-' ∨ c = '+' then
      if (rest.head?.bind digit?).isSome then
        let (n, rest) := digitsOn rest.length 0 rest
        some (if c = '-' then -n else n, rest)
      else none
    else (number? 4 (c :: rest)).map fun (n, rest) => ((n : Int), rest)

/-- Reads a sign after blanks. -/
def sign? (sign : Char) (cs : List Char) : Option (List Char) :=
  match cs.dropWhile Text.isBlank with
  | [] => none
  | c :: rest => if c = sign then some rest else none

/-- Reads the sign between day and hour. -/
def between? : List Char → Option (List Char)
  | [] => none
  | c :: rest => if c = 'T' ∨ c = 't' ∨ c = ' ' then some rest else none

/-- The nanoseconds that the digits of a fraction name; only nine of them count. -/
def nanoseconds (ds : List Char) : Nat :=
  (digitsOn 9 0 (ds ++ List.replicate 9 '0')).1

/-- Reads a fraction of a second in nanoseconds, if there is one. -/
def fraction? : List Char → Option (Nat × List Char)
  | '.' :: rest =>
    match rest.takeWhile Char.isDigit with
    | [] => none
    | ds => some (nanoseconds ds, rest.dropWhile Char.isDigit)
  | cs => some (0, cs)

/-- Reads two digits. -/
def pair? : List Char → Option (Nat × List Char)
  | a :: b :: rest => do
    let x ← digit? a
    let y ← digit? b
    return (x * 10 + y, rest)
  | _ => none

/-- Reads an offset from universal time, in minutes. -/
def offset? (cs : List Char) : Option (Int × List Char) :=
  match cs.dropWhile Text.isBlank with
  | [] => none
  | c :: rest =>
    if c = 'Z' ∨ c = 'z' then some (0, rest)
    else if (c :: rest.take 2).map Char.toUpper = ['U', 'T', 'C'] then some (0, rest.drop 2)
    else do
      let factor : Int ← if c = '+' then some 1
        else if c = '-' ∨ c = '\u2212' then some (-1) else none
      let (hours, rest) ← pair? rest
      let (minutes, rest) ← pair? (rest.dropWhile (fun c => c = ':' || Text.isBlank c))
      if hours ≤ 23 ∧ minutes ≤ 59 then some (factor * (hours * 60 + minutes), rest) else none

/-- The instant whose clock shows the parts at an offset of less than a day. -/
def ofParts? (year : Int) (month day hour minute second nanosecond : Nat) (offset : Int) :
    Option Instant :=
  if Valid year month day hour minute second nanosecond then
    let minutes : Int := hour * 60 + minute - offset
    let (year, month, day) :=
      if minutes < 0 then Calendar.previousDay year month day
      else if minutes < 1440 then (year, month, day)
      else Calendar.nextDay year month day
    let minutes := (minutes % 1440).toNat
    if h : Valid year month day (minutes / 60) (minutes % 60) second nanosecond then
      some ⟨year, month, day, minutes / 60, minutes % 60, second, nanosecond, h⟩
    else none
  else none

/-- Reads an instant. -/
def read? (cs : List Char) : Option Instant := do
  let (year, cs) ← year? cs
  let cs ← sign? '-' cs
  let (month, cs) ← number? 2 cs
  let cs ← sign? '-' cs
  let (day, cs) ← number? 2 cs
  let cs ← between? cs
  let (hour, cs) ← number? 2 cs
  let cs ← sign? ':' cs
  let (minute, cs) ← number? 2 cs
  let cs ← sign? ':' cs
  let (second, cs) ← number? 2 cs
  let (nanosecond, cs) ← fraction? cs
  let (offset, cs) ← offset? cs
  if (cs.dropWhile Text.isBlank).isEmpty then
    ofParts? year month day hour minute second nanosecond offset
  else none

/-- The instant that a text names. -/
def ofText? (s : String) : Option Instant := read? s.toList

/-! ### The written form reads back -/

theorem digit?_digit (n : Nat) : digit? (digit n) = some (n % 10) := by
  have : ∀ m : Fin 10, digit? (Char.ofNat (0x30 + m.val)) = some m.val := by decide
  exact this ⟨n % 10, Nat.mod_lt _ (by decide)⟩

theorem isBlank_digit (n : Nat) : Text.isBlank (digit n) = false := by
  have : ∀ m : Fin 10, Text.isBlank (Char.ofNat (0x30 + m.val)) = false := by decide
  exact this ⟨n % 10, Nat.mod_lt _ (by decide)⟩

theorem number?_two {n : Nat} (h : n ≤ 99) (rest : List Char) :
    number? 2 (two n ++ rest) = some (n, rest) := by
  have hn : n / 10 % 10 * 10 + n % 10 = n := by omega
  simp [number?, two, isBlank_digit, digit?_digit, digitsOn, hn]

theorem number?_four {n : Nat} (h : n ≤ 9999) (rest : List Char) :
    number? 4 (four n ++ rest) = some (n, rest) := by
  have hn : ((n / 1000 % 10 * 10 + n / 100 % 10) * 10 + n / 10 % 10) * 10 + n % 10 = n := by
    omega
  simp [number?, four, isBlank_digit, digit?_digit, digitsOn, hn]

theorem sign?_cons {sign : Char} (h : Text.isBlank sign = false) (rest : List Char) :
    sign? sign (sign :: rest) = some rest := by
  simp [sign?, h]

/-- A year is read up to the hyphen that ends it. -/
theorem year?_yearChars {year : Int} (h : -262143 ≤ year ∧ year ≤ 262142) (rest : List Char) :
    year? (yearChars year ++ '-' :: rest) = some (year, '-' :: rest) := by
  have hminus : Text.isBlank '-' = false := by decide
  have hplus : Text.isBlank '+' = false := by decide
  have hend : digit? '-' = none := by decide
  have hdigit : ∀ n, digit n ≠ '-' ∧ digit n ≠ '+' := by
    intro n
    have : ∀ m : Fin 10, Char.ofNat (0x30 + m.val) ≠ '-' ∧ Char.ofNat (0x30 + m.val) ≠ '+' := by
      decide
    exact this ⟨n % 10, Nat.mod_lt _ (by decide)⟩
  unfold yearChars
  generalize hyear : year.natAbs = n
  split
  · split
    · simp [year?, four, hminus, digit?_digit, digitsOn, hend]
      omega
    · unfold six
      split <;> simp [year?, four, hminus, digit?_digit, digitsOn, hend] <;> omega
  · split
    · have hfour := number?_four (n := n) (by omega) ('-' :: rest)
      simp only [four, List.cons_append, List.nil_append] at hfour ⊢
      simp [year?, isBlank_digit, hdigit, hfour]
      omega
    · unfold six
      split <;> simp [year?, four, hplus, digit?_digit, digitsOn, hend] <;> omega

theorem ofParts?_self (t : Instant) :
    ofParts? t.year t.month t.day t.hour t.minute t.second t.nanosecond 0 = some t := by
  obtain ⟨year, month, day, hour, minute, second, nanosecond, hv⟩ := t
  have hh : hour ≤ 23 := hv.2.1
  have hm : minute ≤ 59 := hv.2.2.1
  have h0 : ¬ (hour : Int) * 60 + minute - 0 < 0 := by omega
  have h1 : (hour : Int) * 60 + minute - 0 < 1440 := by omega
  have h2 : ((hour : Int) * 60 + minute - 0) % 1440 = (hour : Int) * 60 + minute := by omega
  have h3 : ((hour : Int) * 60 + minute).toNat = hour * 60 + minute := by omega
  have h4 : (hour * 60 + minute) / 60 = hour := by omega
  have h5 : (hour * 60 + minute) % 60 = minute := by omega
  rw [ofParts?, if_pos hv]
  simp only [if_neg h0, if_pos h1, h2, h3, h4, h5]
  rw [dif_pos hv]

/-- The written form of an instant reads back as the second in which it lies. -/
theorem read_chars (t : Instant) : read? t.chars = some t.toSecond := by
  have hmo : t.month ≤ 99 := Nat.le_trans t.valid.1.2.1.2 (by decide)
  have hd : t.day ≤ 99 := by
    have h := t.valid.1.2.2.2
    unfold Calendar.monthLength at h
    repeat' split at h
    all_goals omega
  have hh : t.hour ≤ 99 := Nat.le_trans t.valid.2.1 (by decide)
  have hmi : t.minute ≤ 99 := Nat.le_trans t.valid.2.2.1 (by decide)
  have hs : t.second ≤ 99 := Nat.le_trans t.valid.2.2.2.1 (by decide)
  have hz : offset? ['Z'] = some (0, []) := by decide
  have hdash : Text.isBlank (Char.ofNat 0x2D) = false := by decide
  have hcolon : Text.isBlank (Char.ofNat 0x3A) = false := by decide
  have hf : fraction? ['Z'] = some (0, ['Z']) := rfl
  have hself : ofParts? t.year t.month t.day t.hour t.minute t.second 0 0 = some t.toSecond :=
    ofParts?_self t.toSecond
  simp only [read?, chars, clockChars, List.append_assoc, List.cons_append,
    year?_yearChars t.valid.1.1, number?_two hmo, number?_two hd, number?_two hh,
    number?_two hmi, number?_two hs, sign?_cons hdash, sign?_cons hcolon, between?,
    Option.bind_eq_bind, Option.bind_some, true_or, if_true, hf, hz,
    List.dropWhile_nil, List.isEmpty_nil, hself]

end Instant

end NodeFencing
