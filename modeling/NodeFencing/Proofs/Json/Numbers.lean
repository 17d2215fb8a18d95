/-
The characters of a number.

`NumberChars` says how a number is put down: a sign, digits, a fraction and an exponent in any of
their spellings.  A number goes on as long as it can, so it is read back where what follows does
not belong to it, and whatever the reader takes off the front of a text as a number are the
characters of one.

`IsNumeral` are the numerals that can be put down at all.  Those of whole numbers and of floats
are, since the digits that a layout cuts into pieces have no zero in front.
-/
import Mathlib.Data.List.TakeWhile
import NodeFencing.Json.Token

namespace NodeFencing.Json

open Numeral (signChars fractionChars exponentChars)

/-! ### How numbers are put down -/

/-- Whether no digit is at the front of a text. -/
def EndsDigits (rest : List Char) : Prop := ∀ c ∈ rest.head?, c.isDigit = false

/-- Whether no character at the front of a text can belong to a number before it. -/
def EndsNumber (rest : List Char) : Prop :=
  ∀ c ∈ rest.head?, c.isDigit = false ∧ c ≠ '.' ∧ c ≠ 'e' ∧ c ≠ 'E'

/-- Whether characters are digits, and at least one. -/
def IsDigits (ds : List Char) : Prop := ds ≠ [] ∧ ∀ c ∈ ds, c.isDigit = true

/-- Whether characters are the digits before a point: a zero alone, or digits that do not begin
with one. -/
def IsWholePart (ds : List Char) : Prop := ds = ['0'] ∨ IsDigits ds ∧ ds.head? ≠ some '0'

/-- The characters of an exponent. -/
inductive ExponentChars : Option (Bool × List Char) → List Char → Prop where
  | none : ExponentChars none []
  | some {negative : Bool} {c : Char} {sign ds : List Char} : c = 'e' ∨ c = 'E' →
      negative = false ∧ sign = [] ∨ negative = false ∧ sign = ['+'] ∨
        negative = true ∧ sign = ['-'] →
      IsDigits ds → ExponentChars (some (negative, ds)) (c :: (sign ++ ds))

/-- The characters of a number. -/
inductive NumberChars : Numeral → List Char → Prop where
  | mk {negative : Bool} {ds : List Char} {fraction : Option (List Char)}
      {exponent : Option (Bool × List Char)} {cs : List Char} :
      IsWholePart ds → (∀ f ∈ fraction, IsDigits f) → ExponentChars exponent cs →
      NumberChars ⟨negative, ds, fraction, exponent⟩
        (signChars negative ++ (ds ++ (fractionChars fraction ++ cs)))

/-! ### Numbers are read from their characters -/

theorem takeWhile_digits {ds rest : List Char} (hds : ∀ c ∈ ds, c.isDigit = true)
    (hrest : ∀ c ∈ rest.head?, c.isDigit = false) :
    (ds ++ rest).takeWhile Char.isDigit = ds ∧ (ds ++ rest).dropWhile Char.isDigit = rest := by
  rw [List.takeWhile_append_of_pos hds, List.dropWhile_append_of_pos hds]
  cases rest with
  | nil => simp
  | cons c rest => simp [hrest c rfl]

theorem endsDigits_dropWhile (cs : List Char) : EndsDigits (cs.dropWhile Char.isDigit) := by
  intro c hc
  have h := List.head?_dropWhile_not Char.isDigit cs
  rw [Option.mem_def.mp hc] at h
  exact h

theorem isDigits_takeWhile {cs : List Char} (h : cs.takeWhile Char.isDigit ≠ []) :
    IsDigits (cs.takeWhile Char.isDigit) :=
  ⟨h, fun c hc => List.all_eq_true.mp List.all_takeWhile c hc⟩

theorem IsDigits.readWhole_append {ds rest : List Char} (h : IsDigits ds)
    (h0 : ds.head? ≠ some '0') (hrest : EndsDigits rest) :
    readWhole (ds ++ rest) = .ok (ds, rest) := by
  obtain ⟨hne, hall⟩ := h
  cases ds with
  | nil => exact absurd rfl hne
  | cons c ds =>
      obtain ⟨htake, hdrop⟩ :=
        takeWhile_digits (fun d hd => hall d (List.mem_cons_of_mem c hd)) hrest
      have hc : c ≠ '0' := fun hc => h0 (congrArg some hc)
      simp [readWhole, hall c List.mem_cons_self, htake, hdrop]

theorem readWhole_append {ds rest : List Char} (h : IsWholePart ds) (hrest : EndsDigits rest) :
    readWhole (ds ++ rest) = .ok (ds, rest) := by
  rcases h with rfl | ⟨hdigits, h0⟩
  · cases rest with
    | nil => rfl
    | cons c rest => simp [readWhole, hrest c rfl]
  · exact hdigits.readWhole_append h0 hrest

theorem readFraction_append {fraction : Option (List Char)} {rest : List Char}
    (h : ∀ f ∈ fraction, IsDigits f) (hrest : EndsDigits rest) (hpoint : rest.head? ≠ some '.') :
    readFraction (fractionChars fraction ++ rest) = .ok (fraction, rest) := by
  cases fraction with
  | none =>
      rw [fractionChars, List.nil_append, readFraction]
      rintro tail rfl
      exact hpoint rfl
  | some ds =>
      obtain ⟨htake, hdrop⟩ := takeWhile_digits (h ds rfl).2 hrest
      rw [fractionChars, List.cons_append, readFraction, htake, hdrop]
      cases ds with
      | nil => exact absurd rfl (h [] rfl).1
      | cons d ds => rfl

theorem readExponent_append {exponent : Option (Bool × List Char)} {cs rest : List Char}
    (h : ExponentChars exponent cs) (hrest : EndsNumber rest) :
    readExponent (cs ++ rest) = .ok (exponent, rest) := by
  have hends : EndsDigits rest := fun c hc => (hrest c hc).1
  cases h with
  | none =>
      cases rest with
      | nil => rfl
      | cons c rest =>
          obtain ⟨-, -, he, hE⟩ := hrest c rfl
          simp [readExponent, he, hE]
  | @some negative c sign ds hc hsign hds =>
      obtain ⟨htake, hdrop⟩ := takeWhile_digits hds.2 hends
      obtain ⟨hne, hall⟩ := hds
      cases ds with
      | nil => exact absurd rfl hne
      | cons d ds =>
          have hd : d.isDigit = true := hall d List.mem_cons_self
          have hplus : d ≠ '+' := by rintro rfl; exact absurd hd (by decide)
          have hminus : d ≠ '-' := by rintro rfl; exact absurd hd (by decide)
          rw [List.cons_append] at htake hdrop
          rcases hsign with ⟨rfl, rfl⟩ | ⟨rfl, rfl⟩ | ⟨rfl, rfl⟩ <;>
            simp [readExponent, hc, hplus, hminus, htake, hdrop]

theorem ExponentChars.head {exponent : Option (Bool × List Char)} {cs : List Char}
    (h : ExponentChars exponent cs) : ∀ c ∈ cs.head?, c = 'e' ∨ c = 'E' := by
  cases h with
  | none => nofun
  | some hc _ _ => rintro _ ⟨⟩; exact hc

/-- A number is read part by part. -/
theorem readNumber_eq_ok {cs ds afterWhole afterFraction rest : List Char} {negative : Bool}
    {fraction : Option (List Char)} {exponent : Option (Bool × List Char)}
    (hsign : cs.head? ≠ some '-') (hwhole : readWhole cs = .ok (ds, afterWhole))
    (hfraction : readFraction afterWhole = .ok (fraction, afterFraction))
    (hexponent : readExponent afterFraction = .ok (exponent, rest)) :
    readNumber (signChars negative ++ cs) = .ok (⟨negative, ds, fraction, exponent⟩, rest) := by
  cases negative <;>
    simp [signChars, readNumber, hsign, hwhole, hfraction, hexponent, bind, Except.bind, pure,
      Except.pure]

theorem IsWholePart.head_ne {ds : List Char} (h : IsWholePart ds) (rest : List Char) :
    (ds ++ rest).head? ≠ some '-' := by
  rcases h with rfl | ⟨⟨hne, hall⟩, -⟩
  · simp
  · cases ds with
    | nil => exact absurd rfl hne
    | cons d ds =>
        rintro ⟨⟩
        exact absurd (hall '-' List.mem_cons_self) (by decide)

/-- A number is read from its characters, if what follows does not belong to it. -/
theorem readNumber_append {n : Numeral} {cs rest : List Char} (h : NumberChars n cs)
    (hrest : EndsNumber rest) : readNumber (cs ++ rest) = .ok (n, rest) := by
  obtain @⟨negative, ds, fraction, exponent, cs, hds, hfraction, hexponent⟩ := h
  have hafter : EndsDigits (cs ++ rest) ∧ (cs ++ rest).head? ≠ some '.' := by
    cases cs with
    | nil => exact ⟨fun c hc => (hrest c hc).1, fun hc => (hrest '.' hc).2.1 rfl⟩
    | cons c cs =>
        rcases hexponent.head c rfl with rfl | rfl
        · exact ⟨by rintro _ ⟨⟩; rfl, by simp⟩
        · exact ⟨by rintro _ ⟨⟩; rfl, by simp⟩
  have hpoint : EndsDigits (fractionChars fraction ++ (cs ++ rest)) := by
    cases fraction with
    | none => exact hafter.1
    | some f => rintro _ ⟨⟩; rfl
  rw [List.append_assoc, List.append_assoc, List.append_assoc]
  exact readNumber_eq_ok (hds.head_ne _) (readWhole_append hds hpoint)
    (readFraction_append hfraction hafter.1 hafter.2) (readExponent_append hexponent hrest)

/-- A number begins with a sign or a digit. -/
theorem NumberChars.exists_cons {n : Numeral} {l : List Char} (h : NumberChars n l) :
    ∃ c cs, l = c :: cs ∧ (c = '-' ∨ c.isDigit = true) := by
  obtain @⟨negative, ds, fraction, exponent, cs, hds, -, -⟩ := h
  cases negative with
  | true => exact ⟨'-', _, rfl, .inl rfl⟩
  | false =>
      rcases hds with rfl | ⟨⟨hne, hall⟩, -⟩
      · exact ⟨'0', _, rfl, .inr rfl⟩
      · cases ds with
        | nil => exact absurd rfl hne
        | cons d ds => exact ⟨d, _, rfl, .inr (hall d List.mem_cons_self)⟩

/-! ### What is read of a number are its characters -/

theorem exists_of_readWhole {cs ds rest : List Char} (h : readWhole cs = .ok (ds, rest)) :
    cs = ds ++ rest ∧ IsWholePart ds ∧ EndsDigits rest := by
  unfold readWhole at h
  split at h
  · cases h
  · split at h
    · cases h
    · next hdigit =>
      cases h
      refine ⟨rfl, .inl rfl, fun c hc => ?_⟩
      rw [Option.mem_def.mp hc] at hdigit
      simpa using hdigit
  · next c tail hzero =>
    split at h
    · next hc =>
      cases h
      have hall : ∀ d ∈ c :: tail.takeWhile Char.isDigit, d.isDigit = true :=
        List.forall_mem_cons.mpr ⟨hc, fun d hd => List.all_eq_true.mp List.all_takeWhile d hd⟩
      refine ⟨by simp, .inr ⟨⟨List.cons_ne_nil _ _, hall⟩, ?_⟩, endsDigits_dropWhile tail⟩
      rintro ⟨⟩
      exact hzero rfl
    · cases h

theorem exists_of_readFraction {cs rest : List Char} {fraction : Option (List Char)}
    (h : readFraction cs = .ok (fraction, rest)) :
    cs = fractionChars fraction ++ rest ∧ (∀ f ∈ fraction, IsDigits f) ∧
      (EndsDigits cs → EndsDigits rest) := by
  unfold readFraction at h
  split at h
  · next tail =>
    split at h
    · cases h
    · next ds hds =>
      cases h
      refine ⟨by simp [fractionChars], ?_, fun _ => endsDigits_dropWhile tail⟩
      rintro _ ⟨⟩
      exact isDigits_takeWhile hds
  · cases h
    exact ⟨rfl, nofun, id⟩

/-- The sign of an exponent is taken off its front. -/
theorem exists_sign (cs : List Char) :
    ∃ sign, cs = sign ++ (if cs.head? = some '-' ∨ cs.head? = some '+' then cs.drop 1 else cs) ∧
      (decide (cs.head? = some '-') = false ∧ sign = [] ∨
        decide (cs.head? = some '-') = false ∧ sign = ['+'] ∨
        decide (cs.head? = some '-') = true ∧ sign = ['-']) := by
  cases cs with
  | nil => exact ⟨[], rfl, .inl ⟨rfl, rfl⟩⟩
  | cons c cs =>
      by_cases hminus : c = '-'
      · exact ⟨['-'], by simp [hminus], .inr (.inr ⟨by simp [hminus], rfl⟩)⟩
      by_cases hplus : c = '+'
      · exact ⟨['+'], by simp [hplus], .inr (.inl ⟨by simp [hplus], rfl⟩)⟩
      · exact ⟨[], by simp [hminus, hplus], .inl ⟨by simp [hminus], rfl⟩⟩

theorem exists_of_readExponent {cs rest : List Char} {exponent : Option (Bool × List Char)}
    (h : readExponent cs = .ok (exponent, rest)) :
    (∃ l, cs = l ++ rest ∧ ExponentChars exponent l) ∧ (EndsDigits cs → EndsDigits rest) := by
  unfold readExponent at h
  split at h
  · cases h
    exact ⟨⟨[], rfl, .none⟩, id⟩
  · next c tail =>
    split at h
    · next hc =>
      dsimp only at h
      split at h
      · cases h
      · next ds hds =>
        cases h
        obtain ⟨sign, htail, hsign⟩ := exists_sign tail
        refine ⟨⟨_, ?_, .some hc hsign (isDigits_takeWhile hds)⟩, fun _ => endsDigits_dropWhile _⟩
        rw [List.cons_append, List.append_assoc, List.takeWhile_append_dropWhile, ← htail]
    · cases h
      exact ⟨⟨[], rfl, .none⟩, id⟩

/-- What is read as a number are its characters, with no digit after them. -/
theorem exists_of_readNumber {cs rest : List Char} {n : Numeral}
    (h : readNumber cs = .ok (n, rest)) :
    (∃ l, cs = l ++ rest ∧ NumberChars n l) ∧ EndsDigits rest := by
  unfold readNumber at h
  simp only [bind, Except.bind, pure, Except.pure] at h
  split at h
  · cases h
  · next w hw =>
    split at h
    · cases h
    · next f hf =>
      split at h
      · cases h
      · next e he =>
        cases h
        obtain ⟨hwhole, hds, hdigits⟩ := exists_of_readWhole hw
        obtain ⟨hfraction, hfs, hpoint⟩ := exists_of_readFraction hf
        obtain ⟨⟨l, hexponent, hl⟩, hends⟩ := exists_of_readExponent he
        refine ⟨⟨_, ?_, .mk hds hfs hl⟩, hends (hpoint hdigits)⟩
        have hcs : cs = signChars (decide (cs.head? = some '-')) ++
            (if cs.head? = some '-' then cs.drop 1 else cs) := by
          cases cs with
          | nil => rfl
          | cons c cs => by_cases hc : c = '-' <;> simp [signChars, hc]
        rw [List.append_assoc, List.append_assoc, List.append_assoc, ← hexponent, ← hfraction,
          ← hwhole]
        exact hcs

/-! ### The numerals of values -/

/-- Whether a numeral can be put down. -/
structure IsNumeral (n : Numeral) : Prop where
  whole : IsWholePart n.whole
  fraction : ∀ f ∈ n.fraction, IsDigits f
  exponent : ∀ e ∈ n.exponent, IsDigits e.2

theorem numberChars_chars {n : Numeral} (h : IsNumeral n) : NumberChars n n.chars := by
  obtain ⟨negative, ds, fraction, exponent⟩ := n
  refine .mk h.whole h.fraction ?_
  cases exponent with
  | none => exact .none
  | some e =>
      refine .some (.inl rfl) ?_ (h.exponent e rfl)
      cases e.1 with
      | false => exact .inl ⟨rfl, rfl⟩
      | true => exact .inr (.inr ⟨rfl, rfl⟩)

theorem isDigit_digit {n : Nat} (h : n < 10) : (digit n).isDigit = true := by
  have : ∀ m : Fin 10, (digit m.val).isDigit = true := by decide
  exact this ⟨n, h⟩

theorem digitValue_digit {n : Nat} (h : n < 10) : digitValue (digit n) = n := by
  have : ∀ m : Fin 10, digitValue (digit m.val) = m.val := by decide
  exact this ⟨n, h⟩

theorem isDigit_of_mem_decimal {n : Nat} {c : Char} (hc : c ∈ decimal n) : c.isDigit = true := by
  induction n using decimal.induct with
  | case1 n h =>
      rw [decimal, if_pos h, List.mem_singleton] at hc
      exact hc ▸ isDigit_digit h
  | case2 n h ih =>
      rw [decimal, if_neg h, List.mem_append, List.mem_singleton] at hc
      rcases hc with hc | rfl
      · exact ih hc
      · exact isDigit_digit (Nat.mod_lt n (by decide))

theorem readDigits_decimal (n : Nat) : readDigits (decimal n) = n := by
  induction n using decimal.induct with
  | case1 n h =>
      rw [decimal, if_pos h]
      simp [readDigits, digitValue_digit h]
  | case2 n h ih =>
      rw [decimal, if_neg h, readDigits, List.foldl_append, ← readDigits, ih]
      simp only [List.foldl_cons, List.foldl_nil,
        digitValue_digit (Nat.mod_lt n (by decide : 0 < 10))]
      omega

/-- A written number has digits, and a zero in front only if it is zero. -/
theorem decimal_cons (n : Nat) : ∃ c ds, decimal n = c :: ds ∧ (c = '0' → n = 0) := by
  induction n using decimal.induct with
  | case1 n h =>
      refine ⟨digit n, [], by rw [decimal, if_pos h], fun h0 => ?_⟩
      rw [← digitValue_digit h, h0]
      rfl
  | case2 n h ih =>
      obtain ⟨c, ds, hcs, h0⟩ := ih
      refine ⟨c, ds ++ [digit (n % 10)], ?_, fun hc => ?_⟩
      · rw [decimal, if_neg h, hcs, List.cons_append]
      · have := h0 hc
        omega

theorem isDigits_decimal (n : Nat) : IsDigits (decimal n) := by
  obtain ⟨c, ds, hcs, -⟩ := decimal_cons n
  exact ⟨hcs ▸ List.cons_ne_nil c ds, fun _ => isDigit_of_mem_decimal⟩

theorem head?_decimal_ne {n : Nat} (h : n ≠ 0) : (decimal n).head? ≠ some '0' := by
  obtain ⟨c, ds, hcs, h0⟩ := decimal_cons n
  rw [hcs]
  rintro ⟨⟩
  exact h (h0 rfl)

theorem isNumeral_ofInt (n : Int) : IsNumeral (.ofInt n) where
  whole := by
    by_cases h : n.natAbs = 0
    · exact .inl (by simp [Numeral.ofInt, h, decimal, digit])
    · exact .inr ⟨isDigits_decimal _, head?_decimal_ne h⟩
  fraction := nofun
  exponent := nofun

theorem isDigits_zeros_append (k : Nat) {ds : List Char} (h : IsDigits ds) :
    IsDigits (Decimal.zeros k ++ ds) := by
  refine ⟨fun hnil => h.1 (List.append_eq_nil_iff.mp hnil).2, fun c hc => ?_⟩
  rcases List.mem_append.mp hc with hc | hc
  · rw [List.eq_of_mem_replicate hc]
    rfl
  · exact h.2 c hc

/-- The numeral of a decimal in a layout can be put down. -/
theorem isNumeral_layout (f : Decimal.Layout) (negative : Bool) (d : Decimal.Digits) :
    IsNumeral (f.numeral negative d) := by
  have hzero : IsDigits ['0'] := ⟨List.cons_ne_nil _ _, by simp⟩
  have hds := isDigits_decimal d.digits
  unfold Decimal.Layout.numeral
  dsimp only
  split
  · exact ⟨.inl rfl, by simpa using hzero, nofun⟩
  next hd =>
  have hhead := head?_decimal_ne hd
  obtain ⟨c, ds, hcs, -⟩ := decimal_cons d.digits
  rw [hcs] at hds hhead ⊢
  split
  · refine ⟨.inr ⟨⟨by simp, fun e he => ?_⟩, by simpa using hhead⟩, by simpa using hzero, nofun⟩
    rcases List.mem_append.mp he with he | he
    · exact hds.2 e he
    · rw [List.eq_of_mem_replicate he]
      rfl
  split
  · next hsmall hpoint =>
    -- The point stands inside of the digits, so there are some on either side of it.
    obtain ⟨k, hk⟩ : ∃ k, (((c :: ds).length : Int) + d.exponent).toNat = k + 1 :=
      Nat.exists_eq_succ_of_ne_zero (by omega)
    have hlength : k + 1 < (c :: ds).length := by omega
    rw [hk]
    refine ⟨.inr ⟨⟨by simp, fun e he => hds.2 e (List.mem_of_mem_take he)⟩, ?_⟩, ?_, nofun⟩
    · simpa using hhead
    · rintro _ ⟨⟩
      refine ⟨fun hnil => ?_, fun e he => hds.2 e (List.mem_of_mem_drop he)⟩
      have := List.drop_eq_nil_iff.mp hnil
      omega
  split
  · exact ⟨.inl rfl, by rintro _ ⟨⟩; exact isDigits_zeros_append _ hds, nofun⟩
  · refine ⟨.inr ⟨⟨by simp, fun e he => hds.2 e (List.mem_of_mem_take he)⟩, by simpa using hhead⟩,
      ?_, ?_⟩
    · cases ds with
      | nil => nofun
      | cons e ds =>
          rintro _ ⟨⟩
          exact ⟨List.cons_ne_nil e ds, fun e he => hds.2 e (List.mem_cons_of_mem c he)⟩
    · rintro _ ⟨⟩
      exact isDigits_decimal _

/-- A float is never written as a whole number. -/
theorem int?_layout (f : Decimal.Layout) (negative : Bool) (d : Decimal.Digits) :
    (f.numeral negative d).int? = none := by
  unfold Decimal.Layout.numeral
  dsimp only
  repeat' split
  all_goals simp [Numeral.int?]

/-- The numeral of a whole number stands for that number. -/
theorem int?_ofInt (n : Int) : (Numeral.ofInt n).int? = some n := by
  simp only [Numeral.ofInt, Numeral.int?, readDigits_decimal, decide_eq_true_eq]
  split
  · next h =>
      have hne : n.natAbs ≠ 0 := by omega
      rw [if_neg hne]
      congr 1
      omega
  · congr 1
    omega

end NodeFencing.Json
