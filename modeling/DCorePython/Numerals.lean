import DCorePython.Lib.FloatGrid
import DCorePython.Wallet
import Mathlib.Tactic.FieldSimp
import Mathlib.Tactic.LinearCombination
import Mathlib.RingTheory.Coprime.Basic

/-!
# Numerals

Doubles are handed to the wallet interface as decimal numerals, which it reads
as a whole number of the asset's smallest units. A numeral that stops at the
precision of the asset is the double rounded to it; one that goes on shifts the
interval of doubles with the same number of units by half a unit of its last
decimal, and no double lies on the new bounds.
-/

namespace DCore

abbrev Double := BinaryFloat 53 (-1074) 971

def Decimal.value (d : Decimal) : ℚ := d.digits / 10 ^ d.decimals

def units (p : ℕ) (x : ℚ) : ℤ := round (10 ^ p * x)

/-! ## Rounded numerals -/

section
variable {p : ℕ}

/-- The numeral is rounded correctly, ties either way. -/
def Decimal.Rounds (d : Decimal) (y : ℚ) : Prop := |d.value - y| ≤ 1 / 2 / 10 ^ d.decimals

theorem Decimal.ten_pow_mul_value (d : Decimal) : 10 ^ d.decimals * d.value = d.digits := by
  have h10 : (10 : ℚ) ^ d.decimals ≠ 0 := by positivity
  unfold Decimal.value
  field_simp

theorem Decimal.Rounds.abs_le {d : Decimal} {y : ℚ} (h : d.Rounds y) :
    |(d.digits : ℚ) - 10 ^ d.decimals * y| ≤ 1 / 2 := by
  have h10 : (0 : ℚ) < 10 ^ d.decimals := by positivity
  unfold Decimal.Rounds at h
  rw [le_div_iff₀' h10] at h
  rw [← d.ten_pow_mul_value, ← mul_sub, abs_mul, abs_of_pos h10]
  exact h

/-- A numeral that stops at the precision is itself the number of units. -/
theorem units_value_self (d : Decimal) : units d.decimals d.value = d.digits := by
  unfold units
  rw [d.ten_pow_mul_value, round_intCast]

/-- A numeral with `j + 1` decimals more than the precision stands for `k` units
when its digits are in the half-open interval around `k` units. -/
theorem units_value_iff {j : ℕ} {d : Decimal} (hd : d.decimals = p + (j + 1)) (k : ℤ) :
    units p d.value = k ↔
      (2 * k - 1) * (5 * 10 ^ j) ≤ d.digits ∧ d.digits < (2 * k + 1) * (5 * 10 ^ j) := by
  have h10 : (0 : ℚ) < 10 ^ (j + 1) := by positivity
  have hval : (10 : ℚ) ^ p * d.value = d.digits / 10 ^ (j + 1) := by
    rw [eq_div_iff h10.ne', ← d.ten_pow_mul_value, hd, pow_add]
    ring
  have hlow : (k : ℚ) - 1 / 2 ≤ d.digits / 10 ^ (j + 1) ↔
      (2 * k - 1) * (5 * 10 ^ j) ≤ d.digits := by
    rw [le_div_iff₀ h10, ← @Int.cast_le ℚ]
    push_cast
    rw [pow_succ]
    constructor <;> intro h <;> linarith
  have hhigh : (d.digits : ℚ) / 10 ^ (j + 1) < k + 1 / 2 ↔
      d.digits < (2 * k + 1) * (5 * 10 ^ j) := by
    rw [div_lt_iff₀ h10, ← @Int.cast_lt ℚ]
    push_cast
    rw [pow_succ]
    constructor <;> intro h <;> linarith
  unfold units
  rw [round_eq_iff, hval, Set.mem_Ico, hlow, hhigh]

/-- No double is halfway below a numeral whose last digit is 0 or 5. -/
theorem ten_pow_mul_ne (x : Double) {n : ℕ} (hn : 0 < n) (m : ℤ) :
    10 ^ n * x.value ≠ 5 * m - 1 / 2 := by
  intro h
  obtain ⟨a, b, hx⟩ := x.exists_value_mul_two_pow
  have hrat : (2 * 10 ^ n * a : ℚ) = (10 * m - 1) * 2 ^ b := by
    rw [← hx]
    linear_combination 2 * 2 ^ b * h
  have hint : 2 * 10 ^ n * a = (10 * m - 1) * 2 ^ b := by exact_mod_cast hrat
  have h5 : (5 : ℤ) ∣ (10 * m - 1) * 2 ^ b := by
    rw [← hint]
    obtain ⟨q, rfl⟩ := Nat.exists_eq_succ_of_ne_zero hn.ne'
    exact ⟨2 * 2 * 10 ^ q * a, by rw [Nat.succ_eq_add_one, pow_succ]; ring⟩
  have hcop : IsCoprime (5 : ℤ) (2 ^ b) := IsCoprime.pow_right (by norm_num)
  have := hcop.dvd_of_dvd_mul_right h5
  omega

theorem le_nearest_iff {m n : ℤ} {y : ℚ} (h : |(m : ℚ) - y| ≤ 1 / 2) (hne : y ≠ n - 1 / 2) :
    n ≤ m ↔ n - 1 / 2 < y := by
  have hm := abs_le.mp h
  constructor
  · intro hle
    have : (n : ℚ) ≤ m := by exact_mod_cast hle
    exact lt_of_le_of_ne (by linarith) hne.symm
  · intro hlt
    have : (n : ℚ) < m + 1 := by linarith
    exact Int.lt_add_one_iff.mp (by exact_mod_cast this)

theorem units_printed_iff {d : Decimal} {x : Double} (hp : p < d.decimals)
    (h : d.Rounds x.value) (k : ℤ) :
    units p d.value = k ↔ |10 ^ p * x.value + 10 ^ p / 10 ^ d.decimals / 2 - k| < 1 / 2 := by
  obtain ⟨j, hj⟩ : ∃ j, d.decimals = p + (j + 1) := ⟨d.decimals - p - 1, by omega⟩
  have h10 : (0 : ℚ) < 10 ^ (j + 1) := by positivity
  have hne (n : ℤ) : 10 ^ d.decimals * x.value ≠ ((5 * n : ℤ) : ℚ) - 1 / 2 := by
    have := ten_pow_mul_ne x (lt_of_le_of_lt p.zero_le hp) n
    exact_mod_cast this
  have hscale : (10 : ℚ) ^ p * x.value + 10 ^ p / 10 ^ d.decimals / 2 - k =
      (10 ^ d.decimals * x.value + 1 / 2 - k * 10 ^ (j + 1)) / 10 ^ (j + 1) := by
    rw [hj, pow_add]
    field_simp
  -- both ends of the interval end in 0 or 5
  have hlow := le_nearest_iff h.abs_le (hne ((2 * k - 1) * 10 ^ j))
  have hhigh := not_congr (le_nearest_iff h.abs_le (hne ((2 * k + 1) * 10 ^ j)))
  rw [not_le, not_lt] at hhigh
  have hhigh' := hne ((2 * k + 1) * 10 ^ j)
  rw [units_value_iff hj, hscale, abs_div, abs_of_pos h10, div_lt_iff₀ h10, abs_lt,
    mul_left_comm (2 * k - 1), mul_left_comm (2 * k + 1), hlow, hhigh]
  push_cast at hhigh' ⊢
  rw [pow_succ]
  constructor
  · intro hk
    obtain ⟨hk₁, hk₂⟩ := hk
    have := lt_of_le_of_ne hk₂ hhigh'
    constructor <;> linarith
  · intro hk
    obtain ⟨hk₁, hk₂⟩ := hk
    constructor <;> linarith

/-- Where a numeral stops at the precision, only ties are undecided. -/
theorem abs_le_of_units_printed {d : Decimal} {y : ℚ} (hp : p = d.decimals)
    (h : d.Rounds y) {k : ℤ} (hk : units p d.value = k) : |10 ^ p * y - k| ≤ 1 / 2 := by
  rw [hp, units_value_self] at hk
  rw [abs_sub_comm, hp, ← hk]
  exact h.abs_le

theorem units_printed_of_abs_lt {d : Decimal} {y : ℚ} (hp : p = d.decimals)
    (h : d.Rounds y) {k : ℤ} (hk : |10 ^ p * y - k| < 1 / 2) : units p d.value = k := by
  have hdig := abs_le.mp h.abs_le
  have hlt := abs_lt.mp hk
  rw [← hp] at hdig
  rw [hp, units_value_self]
  have h₁ : (k : ℚ) < d.digits + 1 := by linarith
  have h₂ : (d.digits : ℚ) < k + 1 := by linarith
  exact le_antisymm (Int.lt_add_one_iff.mp (by exact_mod_cast h₂))
    (Int.lt_add_one_iff.mp (by exact_mod_cast h₁))

section
variable {d : Decimal} {x : Double} {k : ℤ}

/-- Half a unit of the last decimal, when there is one behind the precision, is
at most a twentieth of a smallest unit. -/
theorem half_unit_mem (hp : p < d.decimals) :
    (10 : ℚ) ^ p / 10 ^ d.decimals / 2 ∈ Set.Ioc (0 : ℚ) (1 / 20) := by
  obtain ⟨j, hj⟩ : ∃ j, d.decimals = p + (j + 1) := ⟨d.decimals - p - 1, by omega⟩
  refine ⟨by positivity, ?_⟩
  have h10 : (1 : ℚ) ≤ 10 ^ j := one_le_pow₀ (by norm_num)
  have hpow : (10 : ℚ) ^ p / 10 ^ d.decimals / 2 = 1 / (20 * 10 ^ j) := by
    rw [hj, pow_add, pow_succ]
    field_simp
    norm_num
  rw [hpow]
  exact one_div_le_one_div_of_le (by norm_num) (by linarith)

theorem units_printed_of_near (hp : p ≤ d.decimals) (h : d.Rounds x.value)
    (hk : |10 ^ p * x.value - k| < 9 / 20) : units p d.value = k := by
  rcases hp.eq_or_lt with heq | hlt
  · exact units_printed_of_abs_lt heq h (by linarith)
  · obtain ⟨hpos, hle⟩ := half_unit_mem hlt
    obtain ⟨hk₁, hk₂⟩ := abs_lt.mp hk
    rw [units_printed_iff hlt h, abs_lt]
    constructor <;> linarith

theorem near_of_units_printed (hp : p ≤ d.decimals) (h : d.Rounds x.value)
    (hk : units p d.value = k) : |10 ^ p * x.value - k| < 11 / 20 := by
  rcases hp.eq_or_lt with heq | hlt
  · have := abs_le_of_units_printed heq h hk
    linarith
  · obtain ⟨hpos, hle⟩ := half_unit_mem hlt
    obtain ⟨hk₁, hk₂⟩ := abs_lt.mp ((units_printed_iff hlt h k).mp hk)
    rw [abs_lt]
    constructor <;> linarith

end

end

/-! ## Printers -/

/-- The value rounded to `d` decimals. -/
def fixedDecimal (d : ℕ) (x : Double) : Decimal := ⟨units d x.value, d⟩

theorem rounds_fixedDecimal (d : ℕ) (x : Double) : (fixedDecimal d x).Rounds x.value := by
  have h10 : (0 : ℚ) < 10 ^ d := by positivity
  have hval : (fixedDecimal d x).value - x.value =
      (round (10 ^ d * x.value) - 10 ^ d * x.value) / 10 ^ d := by
    unfold Decimal.value fixedDecimal units
    rw [sub_div, mul_div_cancel_left₀ _ h10.ne']
  unfold Decimal.Rounds
  rw [hval, abs_div, abs_of_pos h10, abs_sub_comm]
  exact div_le_div_of_nonneg_right (abs_sub_round _) h10.le

/-- All decimals of the value, and `p` more. -/
def exactDecimal (p : ℕ) (x : Double) : Decimal where
  digits := x.m * (if 0 ≤ x.e then 2 ^ x.e.toNat else 5 ^ (-x.e).toNat) * 10 ^ p
  decimals := (-x.e).toNat + p

theorem value_exactDecimal (p : ℕ) (x : Double) : (exactDecimal p x).value = x.value := by
  have h10 : (10 : ℚ) ^ p ≠ 0 := by positivity
  unfold Decimal.value exactDecimal BinaryFloat.value
  split_ifs with he
  · obtain ⟨d, hd⟩ := Int.eq_ofNat_of_zero_le he
    simp [hd, h10]
  · obtain ⟨d, hd⟩ := Int.eq_ofNat_of_zero_le (neg_nonneg.mpr (not_le.mp he).le)
    have hx : x.e = -(d : ℤ) := by omega
    have h2 : (10 : ℚ) ^ d = 2 ^ d * 5 ^ d := by rw [← mul_pow]; norm_num
    simp only [hx, neg_neg, Int.toNat_natCast, zpow_neg, zpow_natCast, pow_add, h2]
    push_cast
    field_simp

end DCore
