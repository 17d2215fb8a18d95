/-
Every float that is written can be read.

The digits of a float are no more than its interval holds, and those of all floats but the last few
stay below the limit when they are read: with the rounding of the digits and of the power of ten.
The last few are looked at one by one.  What is read may be another float, though.
-/
import NodeFencing.Proofs.Decimal.Rounding
import NodeFencing.Proofs.Json.Numbers

namespace NodeFencing.Decimal

/-! ### The value of digits -/

/-- The value of a decimal. -/
def Digits.value (d : Digits) : ℚ := d.digits * 10 ^ d.exponent

theorem power_spec (k : ℤ) : ((power k).1 : ℚ) / (power k).2 = 10 ^ k := by
  rw [zpow_eq_div (by norm_num)]
  simp [power]

theorem power_pos (k : ℤ) : 0 < (power k).2 := Nat.pow_pos (by decide)

/-- Zeros at the end of the digits go into the exponent. -/
theorem Digits.value_strip (fuel : ℕ) (d : Digits) : (d.strip fuel).value = d.value := by
  induction fuel generalizing d with
  | zero => rfl
  | succ fuel ih =>
      rw [strip]
      split
      · next h =>
          rw [ih, value, value, zpow_add_one₀ (by norm_num)]
          have hdigits : (d.digits : ℚ) = (d.digits / 10 : ℕ) * 10 := by
            exact_mod_cast (Nat.div_mul_cancel (Nat.dvd_of_mod_eq_zero h.1)).symm
          rw [hdigits]
          ring
      · rfl

namespace Interval

variable {i : Interval}

theorem le_of_contains (hi : 0 < i.denominator) {num den : ℕ} (hden : 0 < den)
    (h : i.contains num den = true) : (num : ℚ) / den ≤ i.high / i.denominator := by
  have hle : num * i.denominator ≤ i.high * den := by
    simp only [contains] at h
    split at h <;> simp only [Bool.and_eq_true, decide_eq_true_eq] at h <;> omega
  rw [div_le_div_iff₀ (by exact_mod_cast hden) (by exact_mod_cast hi)]
  exact_mod_cast hle

theorem value_neighbour?_le (hi : 0 < i.denominator) {k : ℤ} {d : Digits}
    (h : i.neighbour? k = some d) : d.value ≤ i.high / i.denominator := by
  have hle : ∀ n : ℕ, i.contains (n * (power k).1) (power k).2 = true →
      Digits.value ⟨n, k⟩ ≤ i.high / i.denominator := by
    intro n hn
    refine le_trans (le_of_eq ?_) (le_of_contains hi (power_pos k) hn)
    rw [Digits.value, Nat.cast_mul, mul_div_assoc, power_spec]
  unfold neighbour? at h
  dsimp only at h
  split at h
  · next hboth =>
      simp only [Bool.and_eq_true] at hboth
      obtain rfl := Option.some.inj h
      split
      · exact hle _ hboth.1
      · exact hle _ hboth.2
  · split at h
    · next hbelow =>
        obtain rfl := Option.some.inj h
        exact hle _ hbelow
    · split at h
      · next habove =>
          obtain rfl := Option.some.inj h
          exact hle _ habove
      · cases h

/-- The shortest decimal of an interval is not above it. -/
theorem value_shortest_le (hi : 0 < i.denominator) (hvalue : i.value ≤ i.high) :
    i.shortest.value ≤ i.high / i.denominator := by
  unfold shortest
  dsimp only
  split
  · next d h =>
      obtain ⟨d?, hmem, rfl⟩ := List.exists_of_findSome?_eq_some h
      obtain ⟨n, -, hn⟩ := List.mem_map.mp hmem
      rw [Digits.value_strip]
      exact value_neighbour?_le hi hn
  · have hdenominator : (0 : ℚ) < i.denominator := by exact_mod_cast hi
    rw [Digits.value, zpow_zero, mul_one, le_div_iff₀ hdenominator]
    exact_mod_cast (Nat.div_mul_le_self _ _).trans hvalue

end Interval

namespace Absolute

/-- The end of the interval of a float. -/
theorem high_div_denominator (x : Absolute) :
    (x.interval.high : ℚ) / x.interval.denominator =
      (x.significand + 1 / 2) * 2 ^ x.exponent := by
  have hquarter : (2 : ℚ) ^ x.exponent = 2 ^ (x.exponent - 2) * 4 := by
    rw [zpow_sub₀ two_ne_zero]
    norm_num
  simp only [interval, Interval.ofBinary, Nat.pow_eq]
  rw [hquarter, zpow_eq_div two_ne_zero (x.exponent - 2), neg_sub]
  push_cast
  ring

/-- All floats but the last few end before what is safe. -/
theorem high_le_safe {x : Absolute} (h : x.val + 4 < infinityBits) :
    (x.significand + 1 / 2 : ℚ) * 2 ^ x.exponent ≤ safe := by
  have hhalf := half_pos
  have hbits : x.val + 4 < 2047 * 2 ^ 52 := h
  have hsignificand : x.significand + 1 ≤ 2 ^ 53 ∧
      (x.exponent ≤ 970 ∨ x.exponent = 971 ∧ x.significand + 5 ≤ 2 ^ 53) := by
    unfold significand exponent
    simp only [Nat.pow_eq]
    split <;> omega
  obtain ⟨hfull, hlow | ⟨hlast, hfew⟩⟩ := hsignificand
  · have hpower : (2 : ℚ) ^ x.exponent ≤ half := by
      have := zpow_le_half (k := x.exponent + 1) (by omega)
      rw [zpow_add_one₀ two_ne_zero] at this
      linarith
    have hcast : (x.significand : ℚ) + 1 ≤ 2 ^ 53 := by exact_mod_cast hfull
    calc (x.significand + 1 / 2 : ℚ) * 2 ^ x.exponent ≤ 2 ^ 53 * half := by
          gcongr
          linarith
      _ ≤ safe := by unfold safe; linarith
  · have hpower := zpow_le_half hlast.le
    have hcast : (x.significand : ℚ) + 5 ≤ 2 ^ 53 := by exact_mod_cast hfew
    calc (x.significand + 1 / 2 : ℚ) * 2 ^ x.exponent ≤ (2 ^ 53 - 9 / 2) * (half * 2) := by
          gcongr
          linarith
      _ = safe := by unfold safe; ring

/-- The digits of all floats but the last few are safe. -/
theorem value_digits_le {x : Absolute} (h : x.val + 4 < infinityBits) : x.digits.value ≤ safe := by
  unfold digits
  split
  · rw [Digits.value, Nat.cast_zero, zero_mul]
    exact mul_nonneg (by norm_num) half_pos.le
  · refine (Interval.value_shortest_le (Nat.two_pow_pos _) ?_).trans ?_
    · exact Nat.mul_le_mul_right _ (Nat.le_add_right _ _)
    · rw [high_div_denominator]
      exact high_le_safe h

end Absolute

/-! ### The value of numerals -/

open Json (Numeral digitValue readDigits)

/-- The number that digits make after a number that was read before. -/
def readOn (n : ℕ) (ds : List Char) : ℕ := ds.foldl (fun n c => n * 10 + digitValue c) n

theorem readOn_readDigits (as bs : List Char) :
    readOn (readDigits as) bs = readDigits (as ++ bs) := List.foldl_append.symm

theorem readOn_eq (n : ℕ) (ds : List Char) :
    readOn n ds = n * 10 ^ ds.length + readDigits ds := by
  induction ds generalizing n with
  | nil => simp [readOn, readDigits]
  | cons c ds ih =>
      have hon : readOn n (c :: ds) = readOn (n * 10 + digitValue c) ds := rfl
      have hread : readDigits (c :: ds) = readOn (0 * 10 + digitValue c) ds := rfl
      rw [hon, hread, ih, ih, List.length_cons, Nat.pow_succ]
      ring

theorem readDigits_append (as bs : List Char) :
    readDigits (as ++ bs) = readDigits as * 10 ^ bs.length + readDigits bs := by
  rw [← readOn_readDigits, readOn_eq]

theorem readDigits_zeros (k : ℕ) : readDigits (zeros k) = 0 := by
  induction k with
  | zero => rfl
  | succ k ih =>
      have hcons : zeros (k + 1) = ['0'] ++ zeros k := rfl
      rw [hcons, readDigits_append, ih]
      simp [readDigits, digitValue]

theorem readDigits_lt {ds : List Char} (h : ∀ c ∈ ds, c.isDigit = true) :
    readDigits ds < 10 ^ ds.length := by
  induction ds with
  | nil => decide
  | cons c ds ih =>
      obtain ⟨hc, hds⟩ := List.forall_mem_cons.mp h
      have hdigit : digitValue c ≤ 9 := by
        simp only [Char.isDigit, Bool.and_eq_true, decide_eq_true_eq] at hc
        have hnumber : 0x30 ≤ c.toNat ∧ c.toNat ≤ 0x39 := hc
        unfold digitValue
        omega
      have hone : readDigits [c] = digitValue c := by simp [readDigits]
      rw [← List.singleton_append, readDigits_append, hone]
      calc digitValue c * 10 ^ ds.length + readDigits ds
          < 9 * 10 ^ ds.length + 10 ^ ds.length :=
            add_lt_add_of_le_of_lt (Nat.mul_le_mul_right _ hdigit) (ih hds)
        _ = 10 ^ ([c] ++ ds).length := by
            rw [List.singleton_append, List.length_cons, Nat.pow_succ]
            ring

/-- The digits of a numeral, with the point after the last one. -/
def mantissa (n : Numeral) : List Char := n.whole ++ n.fraction.getD []

/-- The value of a numeral. -/
def numeralValue (n : Numeral) : ℚ :=
  readDigits (mantissa n) * 10 ^ (n.exponentValue - (n.fraction.getD []).length)

namespace Binary

/-- A number whose digits all fit is read whole. -/
theorem wordDigits_of_lt {n : ℕ} {ds : List Char} (h : readOn n ds < 2 ^ 64) :
    wordDigits n ds = (readOn n ds, []) := by
  induction ds generalizing n with
  | nil => rfl
  | cons c ds ih =>
      have hon : readOn n (c :: ds) = readOn (n * 10 + digitValue c) ds := rfl
      have hle : n * 10 + digitValue c ≤ readOn (n * 10 + digitValue c) ds := by
        rw [readOn_eq]
        exact (Nat.le_mul_of_pos_right _ (Nat.pow_pos (by decide))).trans (Nat.le_add_right _ _)
      rw [hon] at h
      rw [wordDigits, Nat.pow_eq, if_pos (hle.trans_lt h), ih h, hon]

/-- The digits that are left out are no less than zeros. -/
theorem wordDigits_spec {n : ℕ} (hn : n < 2 ^ 64) (ds : List Char) :
    (wordDigits n ds).1 < 2 ^ 64 ∧ (wordDigits n ds).2.length ≤ ds.length ∧
      (wordDigits n ds).1 * 10 ^ (wordDigits n ds).2.length ≤ readOn n ds := by
  induction ds generalizing n with
  | nil => simpa [wordDigits, readOn] using hn
  | cons c ds ih =>
      rw [wordDigits, Nat.pow_eq]
      split
      · next h =>
          obtain ⟨hword, hlength, hle⟩ := ih h
          exact ⟨hword, hlength.trans (Nat.le_succ _), hle⟩
      · exact ⟨hn, Nat.le_refl _, by rw [readOn_eq]; exact Nat.le_add_right _ _⟩

/-- A numeral is read if few enough digits stand before its point and its value is safe. -/
theorem isSome_ofNumeral? {n : Numeral} (hwhole : readDigits n.whole < 2 ^ 64)
    (hvalue : numeralValue n ≤ Absolute.safe) : (ofNumeral? n).isSome = true := by
  unfold numeralValue mantissa at hvalue
  generalize hf : n.fraction.getD [] = fraction at hvalue
  have hread : wordDigits 0 n.whole = (readDigits n.whole, []) := wordDigits_of_lt hwhole
  obtain ⟨hword, hlength, hle⟩ := wordDigits_spec hwhole fraction
  rw [readOn_readDigits] at hle
  simp only [ofNumeral?, hf, hread, Option.isSome_map]
  generalize wordDigits (readDigits n.whole) fraction = word at hword hlength hle ⊢
  obtain ⟨word, rest⟩ := word
  dsimp only at hlength hle
  refine Absolute.isSome_scaled? hword (le_trans ?_ hvalue)
  have hexponent : n.exponentValue + ([] : List Char).length - (fraction.length - rest.length : ℕ) =
      rest.length + (n.exponentValue - fraction.length) := by
    rw [List.length_nil]
    omega
  have hle' : (word : ℚ) * 10 ^ rest.length ≤ readDigits (n.whole ++ fraction) := by
    exact_mod_cast hle
  rw [hexponent, zpow_add₀ (by norm_num), zpow_natCast, ← mul_assoc]
  gcongr

end Binary

namespace Layout

@[simp] theorem length_zeros (k : ℕ) : (zeros k).length = k := List.length_replicate

/-- An exponent that is written as a sign and digits. -/
theorem exponentValue_decimal (negative : Bool) (whole : List Char) (fraction : Option (List Char))
    (k : ℤ) : Numeral.exponentValue
      ⟨negative, whole, fraction, some (decide (k < 0), Json.decimal k.natAbs)⟩ = k := by
  simp only [Numeral.exponentValue, Json.readDigits_decimal, decide_eq_true_eq]
  split <;> omega

/-- The numeral of a decimal has its value. -/
theorem value_numeral (f : Layout) (negative : Bool) (d : Digits) :
    numeralValue (f.numeral negative d) = d.value := by
  have hds : readDigits (Json.decimal d.digits) = d.digits := Json.readDigits_decimal d.digits
  have hzero : readDigits ['0'] = 0 := rfl
  obtain ⟨c, ds, hcs, -⟩ := Json.decimal_cons d.digits
  have hlength : (Json.decimal d.digits).length = ds.length + 1 := by rw [hcs, List.length_cons]
  unfold numeral numeralValue mantissa
  dsimp only
  split
  · next hd => simp [Digits.value, hd, readDigits, digitValue]
  split
  · next hwhole =>
    -- A whole number, and a zero after its point.
    obtain ⟨k, hk⟩ := Int.eq_ofNat_of_zero_le hwhole.1
    have hten : (10 : ℚ) ≠ 0 := by norm_num
    simp only [Option.getD_some, Numeral.exponentValue, readDigits_append, hds, readDigits_zeros,
      hzero, Digits.value, hk, Int.toNat_natCast, length_zeros, Nat.add_zero]
    push_cast
    rw [List.length_singleton, pow_one, Nat.cast_one, zero_sub, zpow_neg_one,
      mul_inv_cancel_right₀ hten, zpow_natCast]
  split
  · next hpoint =>
    simp only [Option.getD_some, Numeral.exponentValue, List.take_append_drop, hds, Digits.value]
    congr 2
    rw [List.length_drop]
    omega
  split
  · next hzeros =>
    simp only [Option.getD_some, Numeral.exponentValue, readDigits_append, hds, readDigits_zeros,
      hzero, Digits.value, Nat.zero_mul, Nat.zero_add]
    congr 2
    rw [List.length_append, length_zeros]
    omega
  · have htail : (if (List.drop 1 (Json.decimal d.digits)).isEmpty = true then none else
        some (List.drop 1 (Json.decimal d.digits))).getD [] =
        List.drop 1 (Json.decimal d.digits) := by
      split <;> simp_all
    simp only [htail, exponentValue_decimal, List.take_append_drop, hds, Digits.value]
    congr 2
    rw [List.length_drop]
    omega

/-- No more digits stand before the point than there may, or one. -/
theorem length_whole_numeral {f : Layout} (hf : 1 ≤ f.before) (negative : Bool) (d : Digits) :
    ((f.numeral negative d).whole.length : ℤ) ≤ f.before := by
  unfold numeral
  dsimp only
  split
  · exact hf
  split
  · next hwhole =>
    rw [List.length_append, length_zeros]
    omega
  split
  · next hpoint =>
    rw [List.length_take]
    omega
  split
  · exact hf
  · rw [List.length_take]
    omega

/-- The digits before the point make a number of 64 bits. -/
theorem readDigits_whole_numeral (negative : Bool) (d : Digits) :
    readDigits (Json.layout.numeral negative d).whole < 2 ^ 64 := by
  have hlength : ((Json.layout.numeral negative d).whole.length : ℤ) ≤ 16 :=
    length_whole_numeral (by decide) negative d
  have hdigits : ∀ c ∈ (Json.layout.numeral negative d).whole, c.isDigit = true := by
    obtain h | ⟨h, -⟩ := (Json.isNumeral_layout Json.layout negative d).whole
    · rw [h]
      exact List.forall_mem_singleton.mpr rfl
    · exact h.2
  calc readDigits (Json.layout.numeral negative d).whole
      < 10 ^ (Json.layout.numeral negative d).whole.length := readDigits_lt hdigits
    _ ≤ 10 ^ 16 := Nat.pow_le_pow_right (by decide) (by omega)
    _ < 2 ^ 64 := by decide

end Layout

/-- A float from the greatest one down. -/
def Absolute.fromTop (i : Fin 4) : Absolute :=
  ⟨infinityBits - 1 - i, Nat.lt_of_le_of_lt (Nat.sub_le _ _) (by decide)⟩

theorem isSome_fromTop : ∀ (negative : Bool) (i : Fin 4),
    (Binary.ofNumeral? (Binary.numeral Json.layout ⟨negative, .fromTop i⟩)).isSome = true := by
  decide +kernel

/-- **Every float that is written can be read.** -/
theorem Binary.isSome_ofNumeral?_numeral (x : Binary) :
    (ofNumeral? (x.numeral Json.layout)).isSome = true := by
  obtain ⟨negative, x⟩ := x
  by_cases h : x.val + 4 < infinityBits
  · refine isSome_ofNumeral? (Layout.readDigits_whole_numeral _ _) ?_
    rw [numeral, Layout.value_numeral]
    exact Absolute.value_digits_le h
  · have hx := x.isLt
    have htop : x = .fromTop ⟨infinityBits - 1 - x.val, by omega⟩ := by
      refine Fin.ext ?_
      show x.val = infinityBits - 1 - (infinityBits - 1 - x.val)
      omega
    rw [htop]
    exact isSome_fromTop _ _

end NodeFencing.Decimal
