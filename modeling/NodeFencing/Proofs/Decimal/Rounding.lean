/-
How far a float is from what was rounded to it.

Fractions and floats are compared as rational numbers.  Rounding changes a fraction from one on by
no more than a factor of `1 + unit`, and comes to a float as long as the fraction is below `limit`,
the middle between the greatest float and what would follow it.  All floats are below it.  So a
product of rounded numbers is rounded to a float again if the exact product stays below `limit` by
the two factors.
-/
import Mathlib.Algebra.Order.Field.Power
import Mathlib.Tactic.FieldSimp
import Mathlib.Tactic.Linarith
import Mathlib.Tactic.Positivity
import Mathlib.Tactic.Ring
import NodeFencing.Decimal.Binary

namespace NodeFencing.Decimal

/-- A power with a whole exponent, as it is computed: one of numerator and denominator is one. -/
theorem zpow_eq_div {b : ℚ} (hb : b ≠ 0) (k : ℤ) : b ^ k = b ^ k.toNat / b ^ (-k).toNat := by
  rw [← zpow_natCast, ← zpow_natCast, ← zpow_sub₀ hb]
  congr 1
  omega

namespace Absolute

/-- The value of a float. -/
def value (x : Absolute) : ℚ := x.fraction.1 / x.fraction.2

/-- Half of the distance between the greatest floats. -/
@[irreducible] def half : ℚ := 2 ^ (970 : ℤ)

/-- The middle between the greatest float and what would follow it. -/
def limit : ℚ := (2 ^ 54 - 1) * half

theorem half_pos : 0 < half := by
  unfold half
  exact zpow_pos two_pos _

theorem limit_lt : limit < 2 ^ (1024 : ℤ) := by
  have hpower : (2 : ℚ) ^ (1024 : ℤ) = 2 ^ 54 * half := by
    rw [half, ← zpow_natCast, ← zpow_add₀ two_ne_zero]
    rfl
  rw [hpower, limit]
  exact mul_lt_mul_of_pos_right (by norm_num) half_pos

theorem zpow_le_half {k : ℤ} (h : k ≤ 971) : (2 : ℚ) ^ k ≤ half * 2 := by
  rw [half, ← zpow_add_one₀ two_ne_zero]
  exact zpow_le_zpow_right₀ one_le_two h

theorem value_eq (x : Absolute) : x.value = x.significand * 2 ^ x.exponent := by
  simp only [zpow_eq_div two_ne_zero, value, fraction, Nat.pow_eq]
  push_cast
  rw [mul_div_assoc]

theorem value_nonneg (x : Absolute) : 0 ≤ x.value := by
  unfold value
  positivity

theorem value_zero : zero.value = 0 := by
  have hnone : zero.significand = 0 := rfl
  rw [value_eq, hnone, Nat.cast_zero, zero_mul]

/-- Every float is below the limit. -/
theorem value_lt_limit (x : Absolute) : x.value < limit := by
  have hbits : x.val < 2047 * 2 ^ 52 := x.isLt
  have hsignificand : (x.significand : ℚ) ≤ 2 ^ 53 - 1 := by
    have : x.significand + 1 ≤ 2 ^ 53 := by
      unfold significand
      split <;> simp only [Nat.pow_eq] at * <;> omega
    have hcast : ((x.significand + 1 : ℕ) : ℚ) ≤ (2 ^ 53 : ℕ) := by exact_mod_cast this
    push_cast at hcast
    linarith
  have hexponent : x.exponent ≤ 971 := by
    unfold exponent
    simp only [Nat.pow_eq]
    omega
  have hpower : (2 : ℚ) ^ x.exponent ≤ half * 2 := zpow_le_half hexponent
  have hhalf := half_pos
  rw [value_eq]
  calc (x.significand : ℚ) * 2 ^ x.exponent ≤ (2 ^ 53 - 1) * (half * 2) := by gcongr
    _ < limit := by unfold limit; linarith

/-! ### Rounding -/

/-- The binade of a fraction is the one that it lies in. -/
theorem binade_spec {num den : ℕ} (hnum : 0 < num) (hden : 0 < den) :
    (2 : ℚ) ^ binade num den ≤ num / den ∧ (num : ℚ) / den < 2 ^ (binade num den + 1) := by
  have hd : (0 : ℚ) < den := by exact_mod_cast hden
  have hlow : (2 : ℚ) ^ (num.log2 : ℤ) ≤ num := by
    exact_mod_cast Nat.log2_self_le hnum.ne'
  have hhigh : (num : ℚ) < 2 ^ ((num.log2 : ℤ) + 1) := by
    exact_mod_cast Nat.lt_log2_self (n := num)
  have hlow' : (2 : ℚ) ^ (den.log2 : ℤ) ≤ den := by
    exact_mod_cast Nat.log2_self_le hden.ne'
  have hhigh' : (den : ℚ) < 2 ^ ((den.log2 : ℤ) + 1) := by
    exact_mod_cast Nat.lt_log2_self (n := den)
  have htwo : ∀ a b : ℤ, (2 : ℚ) ^ (a + b) = 2 ^ a * 2 ^ b := fun a b => zpow_add₀ two_ne_zero a b
  generalize ha : (num.log2 : ℤ) = a at hlow hhigh
  generalize hb : (den.log2 : ℤ) = b at hlow' hhigh'
  have hle : den * Nat.pow 2 (a - b).toNat ≤ num * Nat.pow 2 (-(a - b)).toNat ↔
      (2 : ℚ) ^ (a - b) ≤ num / den := by
    rw [zpow_eq_div two_ne_zero, div_le_div_iff₀ (by positivity) hd, mul_comm (den : ℕ)]
    exact_mod_cast Iff.rfl
  simp only [binade, ha, hb, hle]
  split
  · next h =>
      refine ⟨h, ?_⟩
      rw [div_lt_iff₀ hd]
      calc (num : ℚ) < 2 ^ (a + 1) := hhigh
        _ = 2 ^ (a - b + 1) * 2 ^ b := by rw [← htwo]; congr 1; omega
        _ ≤ 2 ^ (a - b + 1) * den := by gcongr
  · next h =>
      refine ⟨?_, ?_⟩
      · rw [le_div_iff₀ hd]
        calc (2 : ℚ) ^ (a - b - 1) * den ≤ 2 ^ (a - b - 1) * 2 ^ (b + 1) := by gcongr
          _ = 2 ^ a := by rw [← htwo]; congr 1; omega
          _ ≤ num := hlow
      · rw [sub_add_cancel]
        exact not_le.mp h

/-- A quotient rounded to the nearest number, ties to the even one. -/
def rounded (n d : ℕ) : ℕ :=
  if 2 * (n % d) < d ∨ (2 * (n % d) = d ∧ n / d % 2 = 0) then n / d else n / d + 1

theorem rounded_spec (n : ℕ) {d : ℕ} (hd : 0 < d) :
    2 * (d * rounded n d) ≤ 2 * n + d ∧ n < d * (rounded n d + 1) := by
  have hdiv : d * (n / d) + n % d = n := Nat.div_add_mod n d
  have hrest : n % d < d := Nat.mod_lt n hd
  unfold rounded
  split
  all_goals
    simp only [Nat.mul_add, Nat.mul_one]
    omega

/-- What rounding a positive fraction comes to: steps of a power of two, no more than half a step
above the fraction and less than a step below, which make a float if they are not too many. -/
structure Rounds (num den : ℕ) (e : ℤ) (steps : ℕ) : Prop where
  exponent_eq : e = max (binade num den - 52) (-1074)
  le_add_half : (steps : ℚ) * 2 ^ e ≤ num / den + 2 ^ e / 2
  lt_succ : (num : ℚ) / den < (steps + 1) * 2 ^ e
  nearest?_eq : nearest? num den =
    if h : (e + 1074).toNat * 2 ^ 52 + steps < infinityBits then some ⟨_, h⟩ else none

theorem exists_rounds {num den : ℕ} (hnum : 0 < num) (hden : 0 < den) :
    ∃ e steps, Rounds num den e steps := by
  generalize he : max (binade num den - 52) (-1074) = e
  have hd : 0 < den * 2 ^ e.toNat := by positivity
  obtain ⟨habove, hbelow⟩ := rounded_spec (num * 2 ^ (-e).toNat) hd
  generalize hsteps : rounded (num * 2 ^ (-e).toNat) (den * 2 ^ e.toNat) = steps at habove hbelow
  -- Over the common denominator both are what is said of the quotient.
  have hden' : (0 : ℚ) < den := by exact_mod_cast hden
  have hup : (0 : ℚ) < 2 ^ e.toNat := by positivity
  have hdown : (0 : ℚ) < 2 ^ (-e).toNat := by positivity
  have habove' : (2 : ℚ) * (den * 2 ^ e.toNat * steps) ≤
      2 * (num * 2 ^ (-e).toNat) + den * 2 ^ e.toNat := by exact_mod_cast habove
  have hbelow' : (num : ℚ) * 2 ^ (-e).toNat < den * 2 ^ e.toNat * (steps + 1) := by
    exact_mod_cast hbelow
  refine ⟨e, steps, he.symm, ?_, ?_, ?_⟩
  · rw [zpow_eq_div two_ne_zero]
    field_simp
    linarith
  · rw [zpow_eq_div two_ne_zero, div_lt_iff₀ hden']
    field_simp
    linarith
  · rw [nearest?, if_neg hnum.ne', he, ← hsteps]
    rfl

section

variable {num den steps : ℕ} {e : ℤ} {x y : Absolute}

theorem Rounds.steps_le (h : Rounds num den e steps) (hnum : 0 < num) (hden : 0 < den) :
    steps ≤ 2 ^ 53 := by
  have hstep : (0 : ℚ) < 2 ^ e := by positivity
  have hfraction : (num : ℚ) / den < 2 ^ 53 * 2 ^ e := by
    refine (binade_spec hnum hden).2.trans_le ?_
    rw [mul_comm, ← zpow_natCast, ← zpow_add₀ two_ne_zero]
    refine zpow_le_zpow_right₀ one_le_two ?_
    have := h.exponent_eq
    omega
  by_contra hmany
  have hsteps : (2 ^ 53 + 1 : ℚ) ≤ steps := by exact_mod_cast not_le.mp hmany
  have hmore : (2 ^ 53 + 1 : ℚ) * 2 ^ e ≤ steps * 2 ^ e := by gcongr
  have hle := h.le_add_half
  linarith

/-- A fraction below the limit is rounded to a float. -/
theorem isSome_nearest? (hden : 0 < den) (h : (num : ℚ) / den < limit) :
    (nearest? num den).isSome = true := by
  obtain rfl | hnum := Nat.eq_zero_or_pos num
  · rfl
  obtain ⟨e, steps, hr⟩ := exists_rounds hnum hden
  have hsteps := hr.steps_le hnum hden
  have hhalf := half_pos
  have he : e ≤ 971 := by
    have hbinade : (2 : ℚ) ^ binade num den < 2 ^ (1024 : ℤ) :=
      (binade_spec hnum hden).1.trans_lt (h.trans limit_lt)
    have := (zpow_lt_zpow_iff_right₀ one_lt_two).mp hbinade
    have := hr.exponent_eq
    omega
  -- In the last binade there are no more steps than to the limit.
  have hlast : e = 971 → steps < 2 ^ 53 := by
    rintro rfl
    have hpower : (2 : ℚ) ^ (971 : ℤ) = half * 2 := by
      rw [half, ← zpow_add_one₀ two_ne_zero]
      rfl
    have hle := hr.le_add_half
    rw [hpower] at hle
    unfold limit at h
    have hcast : (steps : ℚ) * half < 2 ^ 53 * half := by linarith
    exact_mod_cast lt_of_mul_lt_mul_right hcast hhalf.le
  have hbits : (e + 1074).toNat * 2 ^ 52 + steps < infinityBits := by
    have hinfinity : infinityBits = 2047 * 2 ^ 52 := rfl
    omega
  rw [hr.nearest?_eq, dif_pos hbits]
  rfl

/-- The value of a float that is given by its steps. -/
theorem value_of_steps {k : ℕ} (h : k * 2 ^ 52 + steps < infinityBits) (hlow : 2 ^ 52 ≤ steps)
    (hhigh : steps ≤ 2 ^ 53) :
    value ⟨k * 2 ^ 52 + steps, h⟩ = steps * 2 ^ ((k : ℤ) - 1074) := by
  have hsmall : ¬ k * 2 ^ 52 + steps < 2 ^ 52 := by omega
  rw [value_eq]
  simp only [significand, exponent, Nat.pow_eq, if_neg hsmall]
  obtain hless | rfl := Nat.lt_or_eq_of_le hhigh
  · have hdiv : (k * 2 ^ 52 + steps) / 2 ^ 52 = k + 1 := by omega
    have hmod : 2 ^ 52 + (k * 2 ^ 52 + steps) % 2 ^ 52 = steps := by omega
    rw [hdiv, hmod]
    congr 2
    omega
  · have hdiv : (k * 2 ^ 52 + 2 ^ 53) / 2 ^ 52 = k + 2 := by omega
    have hmod : (k * 2 ^ 52 + 2 ^ 53) % 2 ^ 52 = 0 := by omega
    have hexponent : ((max (k + 2) 1 : ℕ) : ℤ) - 1075 = (k - 1074) + 1 := by omega
    rw [hdiv, hmod, hexponent, zpow_add_one₀ two_ne_zero]
    push_cast
    ring

/-- The greatest part by which rounding changes a fraction from one on. -/
def unit : ℚ := 1 / 2 ^ 53

/-- What a fraction from one on is rounded to is from one on too, and hardly greater. -/
theorem value_nearest? (hden : 0 < den) (hone : (1 : ℚ) ≤ num / den)
    (h : nearest? num den = some y) : 1 ≤ y.value ∧ y.value ≤ num / den * (1 + unit) := by
  have hnum : 0 < num := by
    rw [Nat.pos_iff_ne_zero]
    rintro rfl
    norm_num at hone
  obtain ⟨e, steps, hr⟩ := exists_rounds hnum hden
  obtain ⟨hlow, hhigh⟩ := binade_spec hnum hden
  have hbinade : 0 ≤ binade num den := by
    have : (2 : ℚ) ^ (0 : ℤ) < 2 ^ (binade num den + 1) := by
      rw [zpow_zero]
      exact hone.trans_lt hhigh
    have := (zpow_lt_zpow_iff_right₀ one_lt_two).mp this
    omega
  have he : binade num den = 52 + e := by
    have := hr.exponent_eq
    omega
  have hstep : (0 : ℚ) < 2 ^ e := by positivity
  rw [he, zpow_add₀ two_ne_zero] at hlow
  have hlow' : (2 : ℚ) ^ 52 * 2 ^ e ≤ num / den := by exact_mod_cast hlow
  have hsteps : 2 ^ 52 ≤ steps := by
    have hlt : (2 : ℚ) ^ 52 < steps + 1 := by
      have := hlow'.trans_lt hr.lt_succ
      exact lt_of_mul_lt_mul_right this hstep.le
    have : 2 ^ 52 < steps + 1 := by exact_mod_cast hlt
    omega
  rw [hr.nearest?_eq] at h
  split at h
  · next hbits =>
      obtain rfl := Option.some.inj h
      rw [value_of_steps hbits hsteps (hr.steps_le hnum hden)]
      have hexponent : (((e + 1074).toNat : ℕ) : ℤ) - 1074 = e := by omega
      rw [hexponent]
      constructor
      · calc (1 : ℚ) = 2 ^ 52 * 2 ^ (-52 : ℤ) := by norm_num
          _ ≤ steps * 2 ^ e := by
            have hsteps' : (2 : ℚ) ^ 52 ≤ steps := by exact_mod_cast hsteps
            have : (2 : ℚ) ^ (-52 : ℤ) ≤ 2 ^ e := zpow_le_zpow_right₀ one_le_two (by omega)
            gcongr
      · have hle := hr.le_add_half
        unfold unit
        linarith
  · cases h

/-! ### Products and quotients -/

/-- What stays below the limit when both of its factors were rounded. -/
def safe : ℚ := (2 ^ 54 - 9) * half

theorem safe_lt_limit : safe * (1 + unit) * (1 + unit) < limit := by
  have hfactors : ((2 : ℚ) ^ 54 - 9) * (1 + unit) * (1 + unit) < 2 ^ 54 - 1 := by
    norm_num [unit]
  calc safe * (1 + unit) * (1 + unit) = (2 ^ 54 - 9) * (1 + unit) * (1 + unit) * half := by
        unfold safe
        ring
    _ < limit := mul_lt_mul_of_pos_right hfactors half_pos

theorem fraction_pos (x : Absolute) : 0 < x.fraction.2 := Nat.two_pow_pos _

theorem isSome_times? (h : x.value * y.value < limit) : (x.times? y).isSome = true := by
  refine isSome_nearest? (Nat.mul_pos x.fraction_pos y.fraction_pos) ?_
  push_cast
  rwa [mul_div_mul_comm]

theorem isSome_over? (hy : 1 ≤ y.value) : (x.over? y).isSome = true := by
  have hpos : 0 < y.fraction.1 := by
    rw [Nat.pos_iff_ne_zero]
    intro hzero
    simp only [value, hzero, Nat.cast_zero, zero_div] at hy
    exact absurd hy (by norm_num)
  refine isSome_nearest? (Nat.mul_pos x.fraction_pos hpos) ?_
  have hquotient : ((x.fraction.1 * y.fraction.2 : ℕ) : ℚ) / (x.fraction.2 * y.fraction.1 : ℕ) =
      x.value / y.value := by
    push_cast
    rw [value, value, div_div_div_eq]
  rw [hquotient]
  exact (div_le_self x.value_nonneg hy).trans_lt x.value_lt_limit

theorem ten_pow_lt_limit : (10 : ℚ) ^ 308 < limit := by
  have hnat : 10 ^ 308 < (2 ^ 54 - 1) * 2 ^ 970 := by decide +kernel
  have hcast : ((10 ^ 308 : ℕ) : ℚ) < ((2 ^ 54 - 1) * 2 ^ 970 : ℕ) := Nat.cast_lt.mpr hnat
  have hfactor : ((2 ^ 54 - 1 : ℕ) : ℚ) = 2 ^ 54 - 1 := by norm_num
  rw [Nat.cast_pow, Nat.cast_mul, Nat.cast_pow, hfactor] at hcast
  rwa [limit, half, zpow_ofNat]

theorem value_powerOfTen {k : ℕ} (hk : k ≤ 308) :
    1 ≤ (powerOfTen k).value ∧ (powerOfTen k).value ≤ 10 ^ k * (1 + unit) := by
  have hone : (1 : ℚ) ≤ (10 ^ k : ℕ) / (1 : ℕ) := by
    push_cast
    rw [div_one]
    exact one_le_pow₀ (by norm_num)
  have hlimit : ((10 ^ k : ℕ) : ℚ) / (1 : ℕ) < limit := by
    push_cast
    rw [div_one]
    exact (pow_le_pow_right₀ (by norm_num) hk).trans_lt ten_pow_lt_limit
  obtain ⟨p, hp⟩ := Option.isSome_iff_exists.mp (isSome_nearest? Nat.one_pos hlimit)
  have hpower : powerOfTen k = p := by
    rw [powerOfTen, Nat.pow_eq, hp]
    rfl
  rw [hpower]
  simpa using value_nearest? Nat.one_pos hone hp

theorem isSome_lowered? {last : ℕ} (hlast : last ≤ 308) (n : ℕ) (x : Absolute) :
    (lowered? last n x).isSome = true := by
  induction n generalizing x with
  | zero => exact isSome_over? (value_powerOfTen hlast).1
  | succ n ih =>
      rw [lowered?]
      split
      · rfl
      · obtain ⟨y, hy⟩ := Option.isSome_iff_exists.mp
          (isSome_over? (x := x) (value_powerOfTen (Nat.le_refl 308)).1)
        rw [hy]
        exact ih y

theorem safe_lt_ten_pow : safe < 10 ^ (309 : ℤ) := by
  have hnat : 2 ^ 1024 < 10 ^ 309 := by decide +kernel
  have hcast : ((2 ^ 1024 : ℕ) : ℚ) < (10 ^ 309 : ℕ) := Nat.cast_lt.mpr hnat
  rw [Nat.cast_pow, Nat.cast_pow] at hcast
  have hsafe : safe < limit := mul_lt_mul_of_pos_right (by norm_num) half_pos
  have hlimit := limit_lt
  rw [zpow_ofNat] at hlimit ⊢
  exact (hsafe.trans hlimit).trans hcast

/-- What a whole number is rounded to is hardly greater. -/
theorem value_nearest?_one_le {n : ℕ} (h : nearest? n 1 = some x) : x.value ≤ n * (1 + unit) := by
  obtain rfl | hpos := Nat.eq_zero_or_pos n
  · obtain rfl : zero = x := Option.some.inj h
    rw [value_zero, Nat.cast_zero, zero_mul]
  · have hone : (1 : ℚ) ≤ n / (1 : ℕ) := by
      rw [Nat.cast_one, div_one]
      exact_mod_cast hpos
    have hle := (value_nearest? Nat.one_pos hone h).2
    rwa [Nat.cast_one, div_one] at hle

/-- A number and a power of ten that were rounded have a product if the exact one is safe. -/
theorem isSome_times?_powerOfTen {n k : ℕ} (hk : k ≤ 308) (hx : x.value ≤ n * (1 + unit))
    (h : (n : ℚ) * 10 ^ k ≤ safe) : (x.times? (powerOfTen k)).isSome = true := by
  have hunit : (0 : ℚ) ≤ 1 + unit := by norm_num [unit]
  refine isSome_times? ?_
  calc x.value * (powerOfTen k).value ≤ n * (1 + unit) * (10 ^ k * (1 + unit)) :=
        mul_le_mul hx (value_powerOfTen hk).2 (value_nonneg _) (by positivity)
    _ = n * 10 ^ k * (1 + unit) * (1 + unit) := by ring
    _ ≤ safe * (1 + unit) * (1 + unit) := by gcongr
    _ < limit := safe_lt_limit

/-- A number of 64 bits times a power of ten is read, if it is small enough. -/
theorem isSome_scaled? {n : ℕ} {k : ℤ} (hn : n < 2 ^ 64) (h : (n : ℚ) * 10 ^ k ≤ safe) :
    (scaled? n k).isSome = true := by
  have hlimit : (n : ℚ) / (1 : ℕ) < limit := by
    rw [Nat.cast_one, div_one]
    calc (n : ℚ) < 2 ^ 64 := by exact_mod_cast hn
      _ ≤ 10 ^ 20 := by norm_num
      _ ≤ 10 ^ 308 := pow_le_pow_right₀ (by norm_num) (by norm_num)
      _ < limit := ten_pow_lt_limit
  obtain ⟨x, hx⟩ := Option.isSome_iff_exists.mp (isSome_nearest? Nat.one_pos hlimit)
  simp only [scaled?, hx, Option.bind_some]
  split
  · exact isSome_lowered? (by omega) _ x
  split
  · next hneg hsmall =>
    obtain ⟨m, rfl⟩ := Int.eq_ofNat_of_zero_le (not_lt.mp hneg)
    rw [zpow_natCast] at h
    exact isSome_times?_powerOfTen (by omega) (value_nearest?_one_le hx) h
  · next hneg hlarge =>
    -- From ten to the 309 on there is nothing but zero.
    obtain rfl | hpos := Nat.eq_zero_or_pos n
    · obtain rfl : zero = x := Option.some.inj hx
      rfl
    · have hone : (1 : ℚ) ≤ n := by exact_mod_cast hpos
      have hpower : (10 : ℚ) ^ (309 : ℤ) ≤ n * 10 ^ k := by
        calc (10 : ℚ) ^ (309 : ℤ) ≤ 10 ^ k := zpow_le_zpow_right₀ (by norm_num) (by omega)
          _ ≤ n * 10 ^ k := le_mul_of_one_le_left (by positivity) hone
      exact absurd (hpower.trans h) (not_le.mpr safe_lt_ten_pow)

end

end Absolute

end NodeFencing.Decimal
