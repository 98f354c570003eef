import Mathlib.Data.Int.Log
import Mathlib.Data.Rat.Floor
import Mathlib.Order.Interval.Set.OrdConnected
import Mathlib.Algebra.Order.Round
import Mathlib.Tactic.Linarith
import Mathlib.Tactic.Positivity

/-!
# Binary floating-point numbers

A number of the format is `m * 2 ^ e` with a bounded significand and exponent.
Around a point `y` the numbers are the multiples of a power of two, the spacing
at `y`. Below the binade of `y` they are denser, but a convex set that reaches
there from `y` contains the start of the binade as well, so whether a convex set
around `y` contains a number is decided by the multiples of the spacing alone.
-/

structure BinaryFloat (prec : ℕ) (emin emax : ℤ) where
  m : ℤ
  e : ℤ
  abs_lt : |m| < 2 ^ prec
  emin_le : emin ≤ e
  le_emax : e ≤ emax

namespace BinaryFloat

variable {prec : ℕ} {emin emax : ℤ}

def value (x : BinaryFloat prec emin emax) : ℚ := x.m * 2 ^ x.e

def spacingExp (prec : ℕ) (emin : ℤ) (y : ℚ) : ℤ := max (Int.log 2 y - (prec - 1)) emin

theorem value_lt (x : BinaryFloat prec emin emax) : x.value < 2 ^ (prec + x.e) := by
  have hm : (x.m : ℚ) < 2 ^ prec := by
    have := lt_of_le_of_lt (le_abs_self x.m) x.abs_lt
    exact_mod_cast this
  unfold value
  rw [zpow_add₀ two_ne_zero, zpow_natCast]
  exact mul_lt_mul_of_pos_right hm (zpow_pos two_pos _)

theorem value_eq_of_le (x : BinaryFloat prec emin emax) {s : ℤ} (h : s ≤ x.e) :
    ∃ n : ℤ, x.value = n * 2 ^ s := by
  obtain ⟨d, hd⟩ := Int.eq_ofNat_of_zero_le (sub_nonneg.mpr h)
  refine ⟨x.m * 2 ^ d, ?_⟩
  have he : x.e = d + s := by omega
  unfold value
  rw [he, zpow_add₀ two_ne_zero, zpow_natCast]
  push_cast
  ring

theorem exists_value_mul_two_pow (x : BinaryFloat prec emin emax) :
    ∃ (a : ℤ) (b : ℕ), x.value * 2 ^ b = a := by
  unfold value
  rcases le_total 0 x.e with he | he
  · obtain ⟨d, hd⟩ := Int.eq_ofNat_of_zero_le he
    exact ⟨x.m * 2 ^ d, 0, by rw [hd, zpow_natCast]; push_cast; ring⟩
  · obtain ⟨d, hd⟩ := Int.eq_ofNat_of_zero_le (neg_nonneg.mpr he)
    have hx : x.e = -(d : ℤ) := by omega
    refine ⟨x.m, d, ?_⟩
    rw [hx, zpow_neg, zpow_natCast, mul_assoc, inv_mul_cancel₀ (by positivity), mul_one]

theorem lt_two_pow_mul_spacing (prec : ℕ) (emin : ℤ) (y : ℚ) :
    y < 2 ^ prec * 2 ^ spacingExp prec emin y := by
  have h := Int.lt_zpow_succ_log_self (b := 2) (by norm_num) y
  apply lt_of_lt_of_le h
  rw [← zpow_natCast, ← zpow_add₀ two_ne_zero]
  apply zpow_le_zpow_right₀ (by norm_num)
  have := le_max_left (Int.log 2 y - (prec - 1)) emin
  unfold spacingExp
  omega

section
variable {I : Set ℚ} {y : ℚ}

theorem two_zpow_log (hprec : 1 ≤ prec)
    (hs : spacingExp prec emin y = Int.log 2 y - (prec - 1)) :
    (2 : ℚ) ^ Int.log 2 y = 2 ^ (prec - 1) * 2 ^ spacingExp prec emin y := by
  rw [← zpow_natCast, ← zpow_add₀ two_ne_zero, hs]
  congr 1
  omega

theorem exists_multiple_of_float (hprec : 1 ≤ prec) (hI : I.OrdConnected) (hy : y ∈ I) (h0 : 0 ≤ y)
    {x : BinaryFloat prec emin emax} (hx : x.value ∈ I) :
    ∃ n : ℤ, (n : ℚ) * 2 ^ spacingExp prec emin y ∈ I := by
  rcases h0.eq_or_lt with rfl | hpos
  · exact ⟨0, by simpa using hy⟩
  rcases le_or_gt (spacingExp prec emin y) x.e with hle | hlt
  · obtain ⟨n, hn⟩ := value_eq_of_le x hle
    exact ⟨n, hn ▸ hx⟩
  -- `x` is below the binade of `y`, whose start is between the two
  have hs : spacingExp prec emin y = Int.log 2 y - (prec - 1) := by
    have := x.emin_le
    rw [spacingExp] at hlt ⊢
    omega
  have hstart : ((2 : ℕ) : ℚ) ^ Int.log 2 y ≤ y := Int.zpow_log_le_self (by norm_num) hpos
  have hbelow : x.value ≤ ((2 : ℕ) : ℚ) ^ Int.log 2 y := by
    apply le_trans (value_lt x).le
    exact zpow_le_zpow_right₀ (by norm_num) (by omega)
  have hmem : ((2 : ℕ) : ℚ) ^ Int.log 2 y ∈ I := hI.out hx hy ⟨hbelow, hstart⟩
  rw [Nat.cast_ofNat, two_zpow_log hprec hs] at hmem
  exact ⟨2 ^ (prec - 1), by push_cast; exact hmem⟩

/-- A multiple of the spacing in a convex set around `y` gives a number there:
the multiple itself unless it is negative or beyond the significands. -/
theorem exists_float_of_multiple (hprec : 1 ≤ prec) (hI : I.OrdConnected) (hy : y ∈ I)
    (h0 : 0 ≤ y) (hmax : spacingExp prec emin y < emax) {n : ℤ}
    (hn : (n : ℚ) * 2 ^ spacingExp prec emin y ∈ I) :
    ∃ x : BinaryFloat prec emin emax, x.value ∈ I := by
  have hu : (0 : ℚ) < 2 ^ spacingExp prec emin y := zpow_pos two_pos _
  have hmin : emin ≤ spacingExp prec emin y := le_max_right _ _
  rcases lt_or_ge n 0 with hneg | hnonneg
  · refine ⟨⟨0, spacingExp prec emin y, by simp, hmin, hmax.le⟩, ?_⟩
    have hle : (n : ℚ) * 2 ^ spacingExp prec emin y ≤ 0 :=
      mul_nonpos_of_nonpos_of_nonneg (by exact_mod_cast hneg.le) hu.le
    simpa [value] using hI.out hn hy ⟨hle, h0⟩
  rcases lt_or_ge n (2 ^ prec) with hlt | hge
  · exact ⟨⟨n, spacingExp prec emin y, by rwa [abs_of_nonneg hnonneg], hmin, hmax.le⟩, hn⟩
  · have hlt : (2 : ℤ) ^ (prec - 1) < 2 ^ prec := pow_lt_pow_right₀ (by norm_num) (by omega)
    refine ⟨⟨2 ^ (prec - 1), spacingExp prec emin y + 1, by rwa [abs_of_pos (by positivity)],
      by omega, by omega⟩, ?_⟩
    have hval : ((2 ^ (prec - 1) : ℤ) : ℚ) * 2 ^ (spacingExp prec emin y + 1) =
        2 ^ prec * 2 ^ spacingExp prec emin y := by
      obtain ⟨q, rfl⟩ := Nat.exists_eq_add_of_le' hprec
      rw [zpow_add_one₀ two_ne_zero, Nat.add_sub_cancel, pow_succ]
      push_cast
      ring
    have hend : (2 : ℚ) ^ prec * 2 ^ spacingExp prec emin y ∈ I := by
      refine hI.out hy hn ⟨(lt_two_pow_mul_spacing prec emin y).le, ?_⟩
      exact mul_le_mul_of_nonneg_right (by exact_mod_cast hge) hu.le
    unfold value
    rw [hval]
    exact hend

/-- A convex set around `y` contains a number exactly when it contains a
multiple of the spacing at `y`. -/
theorem exists_float_iff (hprec : 1 ≤ prec) (hI : I.OrdConnected) (hy : y ∈ I) (h0 : 0 ≤ y)
    (hmax : spacingExp prec emin y < emax) :
    (∃ x : BinaryFloat prec emin emax, x.value ∈ I) ↔
      ∃ n : ℤ, (n : ℚ) * 2 ^ spacingExp prec emin y ∈ I :=
  ⟨fun ⟨_, hx⟩ => exists_multiple_of_float hprec hI hy h0 hx,
    fun ⟨_, hn⟩ => exists_float_of_multiple hprec hI hy h0 hmax hn⟩

end

theorem exists_multiple_near {u : ℚ} (hu : 0 < u) (y : ℚ) : ∃ n : ℤ, |n * u - y| ≤ u / 2 := by
  refine ⟨round (y / u), ?_⟩
  have hround := mul_le_mul_of_nonneg_right (abs_sub_round (y / u)) hu.le
  have hscale : round (y / u) * u - y = (round (y / u) - y / u) * u := by
    rw [sub_mul, div_mul_cancel₀ y hu.ne']
  rw [hscale, abs_mul, abs_of_pos hu, abs_sub_comm]
  linarith

end BinaryFloat
