import Mathlib.Algebra.Order.Field.Power
import Mathlib.Algebra.Order.Field.Rat
import Mathlib.Data.Nat.Log
import Mathlib.Tactic.FieldSimp
import Mathlib.Tactic.Linarith
import Mathlib.Tactic.NormNum
import Mathlib.Tactic.Positivity
import Mathlib.Tactic.Ring
import Mathlib.Tactic.SplitIfs
import Triage.Decimal.Rounding

/-!
# How far rounding goes

The double-precision number nearest to a fraction is off by half a unit in the last place at most,
and it is finite if the fraction lies below the middle between the largest finite number and the
power of two behind it.
-/

namespace Triage

/-- A power as a fraction of two powers that are natural numbers, one of them with exponent
zero. -/
theorem zpow_eq_div (b : ℚ) (k : ℤ) : b ^ k = b ^ k.toNat / b ^ (-k).toNat := by
  rcases le_or_gt 0 k with hk | hk
  · have hneg : (-k).toNat = 0 := by omega
    rw [hneg, pow_zero, div_one, ← zpow_natCast, Int.toNat_of_nonneg hk]
  · have hpos : k.toNat = 0 := by omega
    have hcast : ((-k).toNat : ℤ) = -k := Int.toNat_of_nonneg (by omega)
    rw [hpos, pow_zero, one_div, ← zpow_natCast, hcast, zpow_neg, inv_inv]

namespace Decimal

/-! ## Quotients -/

/-- A rounded quotient is off by a half at most. -/
theorem roundDiv_bounds (n : ℕ) {d : ℕ} (hd : 0 < d) :
    2 * d * roundDiv n d ≤ 2 * n + d ∧ 2 * n ≤ 2 * d * roundDiv n d + d := by
  have hdiv : d * (n / d) + n % d = n := Nat.div_add_mod n d
  have hmod : n % d < d := Nat.mod_lt n hd
  have hnext : 2 * d * (n / d + 1) = 2 * (d * (n / d)) + 2 * d := by ring
  have hsame : 2 * d * (n / d) = 2 * (d * (n / d)) := by ring
  simp only [roundDiv]
  split_ifs with h
  · constructor <;> omega
  · constructor <;> omega

theorem roundDiv_bounds_rat (n : ℕ) {d : ℕ} (hd : 0 < d) :
    (roundDiv n d : ℚ) ≤ n / d + 1 / 2 ∧ (n : ℚ) / d - 1 / 2 ≤ roundDiv n d := by
  obtain ⟨hle, hge⟩ := roundDiv_bounds n hd
  have hd' : (0 : ℚ) < d := by exact_mod_cast hd
  have hle' : 2 * (d : ℚ) * roundDiv n d ≤ 2 * n + d := by exact_mod_cast hle
  have hge' : 2 * (n : ℚ) ≤ 2 * d * roundDiv n d + d := by exact_mod_cast hge
  constructor
  · rw [div_add_div _ _ hd'.ne' two_ne_zero, le_div_iff₀ (by positivity)]
    linarith
  · rw [div_sub_div _ _ hd'.ne' two_ne_zero, div_le_iff₀ (by positivity)]
    linarith

/-! ## Places -/

theorem mul_two_pow_le_iff (a b : ℕ) (k : ℤ) :
    a * Nat.pow 2 k.toNat ≤ b * Nat.pow 2 (-k).toNat ↔ (a : ℚ) * 2 ^ k ≤ b := by
  rw [zpow_eq_div, ← mul_div_assoc, div_le_iff₀ (by positivity)]
  simp only [Nat.pow_eq]
  exact_mod_cast Iff.rfl

theorem two_pow_log2_le {n : ℕ} (hn : n ≠ 0) :
    (2 : ℚ) ^ (n.log2 : ℤ) ≤ n ∧ (n : ℚ) < 2 ^ (n.log2 + 1 : ℤ) := by
  have hle : 2 ^ n.log2 ≤ n := Nat.log2_self_le hn
  have hlt : n < 2 ^ (n.log2 + 1) := Nat.lt_log2_self
  exact ⟨by exact_mod_cast hle, by exact_mod_cast hlt⟩

/-- The last place is the one that leaves a fraction 53 binary digits, or the smallest of all. -/
theorem lastPlace_bounds {n d : ℕ} (hn : n ≠ 0) (hd : d ≠ 0) :
    -1074 ≤ lastPlace n d ∧ (n : ℚ) < d * 2 ^ (lastPlace n d + 53) ∧
      (lastPlace n d = -1074 ∨ (d : ℚ) * 2 ^ (lastPlace n d + 52) ≤ n) := by
  obtain ⟨hnle, hnlt⟩ := two_pow_log2_le hn
  obtain ⟨hdle, hdlt⟩ := two_pow_log2_le hd
  have hd' : (0 : ℚ) < d := by exact_mod_cast Nat.pos_of_ne_zero hd
  have hmono : ∀ {a b : ℤ}, a ≤ b → (d : ℚ) * 2 ^ a ≤ d * 2 ^ b := fun hab =>
    mul_le_mul_of_nonneg_left (zpow_le_zpow_right₀ one_le_two hab) hd'.le
  have hupper : (n : ℚ) < d * 2 ^ ((n.log2 : ℤ) - d.log2 + 1) := by
    calc (n : ℚ) < 2 ^ (n.log2 + 1 : ℤ) := hnlt
      _ = 2 ^ (d.log2 : ℤ) * 2 ^ ((n.log2 : ℤ) - d.log2 + 1) := by
        rw [← zpow_add₀ two_ne_zero]; congr 1; ring
      _ ≤ d * 2 ^ ((n.log2 : ℤ) - d.log2 + 1) := mul_le_mul_of_nonneg_right hdle (by positivity)
  have hlower : (d : ℚ) * 2 ^ ((n.log2 : ℤ) - d.log2 - 1) ≤ n := by
    calc (d : ℚ) * 2 ^ ((n.log2 : ℤ) - d.log2 - 1)
        ≤ 2 ^ (d.log2 + 1 : ℤ) * 2 ^ ((n.log2 : ℤ) - d.log2 - 1) :=
          mul_le_mul_of_nonneg_right hdlt.le (by positivity)
      _ = 2 ^ (n.log2 : ℤ) := by rw [← zpow_add₀ two_ne_zero]; congr 1; ring
      _ ≤ n := hnle
  simp only [lastPlace, mul_two_pow_le_iff]
  split_ifs with hlow
  · refine ⟨le_max_right _ _, hupper.trans_le (hmono (by omega)), ?_⟩
    refine (max_cases _ _).symm.imp (·.1) fun hmax => ?_
    rw [hmax.1, add_comm]
    exact hlow
  · refine ⟨le_max_right _ _, (not_le.1 hlow).trans_le (hmono (by omega)), ?_⟩
    refine (max_cases _ _).symm.imp (·.1) fun hmax => ?_
    exact (hmono (by omega)).trans hlower

/-! ## Magnitudes -/

/-- The magnitude nearest to a fraction counts a rounded number of last places. -/
theorem nearestMagnitude_eq {n d : ℕ} (hd : d ≠ 0) :
    ∃ q : ℕ, nearestMagnitude n d = (lastPlace n d + 1074).toNat * 2 ^ 52 + q ∧
      (q : ℚ) ≤ n / d * 2 ^ (-lastPlace n d) + 1 / 2 ∧
      (n : ℚ) / d * 2 ^ (-lastPlace n d) - 1 / 2 ≤ q := by
  set e := lastPlace n d with he
  have hden : 0 < d * Nat.pow 2 e.toNat := Nat.mul_pos (by omega) (Nat.pow_pos two_pos)
  have hratio : ((n * Nat.pow 2 (-e).toNat : ℕ) : ℚ) / (d * Nat.pow 2 e.toNat : ℕ) =
      n / d * 2 ^ (-e) := by
    rw [zpow_eq_div, neg_neg, div_mul_div_comm]
    push_cast [Nat.pow_eq]
    rfl
  refine ⟨roundDiv (n * Nat.pow 2 (-e).toNat) (d * Nat.pow 2 e.toNat), ?_, ?_, ?_⟩
  · simp only [nearestMagnitude, ← he, Nat.pow_eq]
  · rw [← hratio]
    exact (roundDiv_bounds_rat _ hden).1
  · rw [← hratio]
    exact (roundDiv_bounds_rat _ hden).2

theorem le_of_lt_add_half {a b : ℕ} (h : (a : ℚ) < b + 1 / 2) : a ≤ b := by
  have hlt : (a : ℚ) < (b + 1 : ℕ) := by push_cast; linarith
  have := Nat.cast_lt.1 hlt
  omega

/-- How many last places there are, and how far their number is off. -/
theorem nearestMagnitude_bounds {n d : ℕ} (hn : n ≠ 0) (hd : d ≠ 0) :
    ∃ q : ℕ, nearestMagnitude n d = (lastPlace n d + 1074).toNat * 2 ^ 52 + q ∧
      (q : ℚ) ≤ n / d * 2 ^ (-lastPlace n d) + 1 / 2 ∧ q ≤ 2 ^ 53 ∧
      (lastPlace n d = -1074 ∨ 2 ^ 52 ≤ q) := by
  obtain ⟨q, hq, hle, hge⟩ := nearestMagnitude_eq (n := n) hd
  obtain ⟨-, hlt, hplace⟩ := lastPlace_bounds hn hd
  set e := lastPlace n d
  have hd' : (0 : ℚ) < d := by exact_mod_cast Nat.pos_of_ne_zero hd
  have hpow : ∀ k : ℤ, (d : ℚ) * 2 ^ (e + k) / d * 2 ^ (-e) = 2 ^ k := by
    intro k
    rw [mul_div_cancel_left₀ _ hd'.ne', ← zpow_add₀ two_ne_zero]
    congr 1
    ring
  refine ⟨q, hq, hle, ?_, hplace.imp_right fun hhigh => ?_⟩
  · have hbelow : (n : ℚ) / d * 2 ^ (-e) < 2 ^ (53 : ℤ) := by
      rw [← hpow 53]
      gcongr
    apply le_of_lt_add_half
    push_cast
    linarith [show (2 : ℚ) ^ (53 : ℤ) = 2 ^ 53 from rfl]
  · have habove : (2 : ℚ) ^ (52 : ℤ) ≤ n / d * 2 ^ (-e) := by
      rw [← hpow 52]
      gcongr
    by_contra! hsmall
    have hsucc : ((q + 1 : ℕ) : ℚ) ≤ (2 ^ 52 : ℕ) := by exact_mod_cast hsmall
    push_cast at hsucc
    linarith [show (2 : ℚ) ^ (52 : ℤ) = 2 ^ 52 from rfl]

end Decimal

namespace Binary64

/-- The middle between the largest finite number and the power of two behind it. -/
def overflow : ℚ := (2 ^ 54 - 1) * 2 ^ (970 : ℤ)

theorem overflow_mul_two_zpow (k : ℤ) : overflow * 2 ^ k = (2 ^ 54 - 1) * 2 ^ (970 + k) := by
  rw [overflow, mul_assoc, ← zpow_add₀ two_ne_zero]

theorem overflow_lt : overflow < 2 ^ (1024 : ℤ) := by
  have hsplit : (2 : ℚ) ^ (1024 : ℤ) = 2 ^ 54 * 2 ^ (970 : ℤ) := by
    rw [← zpow_natCast, ← zpow_add₀ two_ne_zero]
    rfl
  rw [hsplit, overflow]
  exact mul_lt_mul_of_pos_right (by norm_num) (by positivity)

/-- What lies below that middle is rounded to a finite number. -/
theorem nearestMagnitude_lt_infinity {n d : ℕ} (hn : n ≠ 0) (hd : d ≠ 0)
    (h : (n : ℚ) / d < overflow) : Decimal.nearestMagnitude n d < infinityMagnitude := by
  obtain ⟨q, hq, hle, hcount, -⟩ := Decimal.nearestMagnitude_bounds hn hd
  obtain ⟨-, -, hplace⟩ := Decimal.lastPlace_bounds hn hd
  set e := Decimal.lastPlace n d
  have hd' : (0 : ℚ) < d := by exact_mod_cast Nat.pos_of_ne_zero hd
  have hmax : infinityMagnitude = 2047 * 2 ^ 52 := by decide
  rw [hq, hmax]
  rcases hplace with hbottom | hhigh
  · rw [hbottom]
    omega
  have hexp : e ≤ 971 := by
    have hpow : (2 : ℚ) ^ (e + 52) < 2 ^ (1024 : ℤ) := by
      calc (2 : ℚ) ^ (e + 52) ≤ n / d := (le_div_iff₀' hd').2 hhigh
        _ < 2 ^ (1024 : ℤ) := h.trans overflow_lt
    have := (zpow_lt_zpow_iff_right₀ one_lt_two).1 hpow
    omega
  rcases hexp.lt_or_eq with hlow | htop
  · omega
  · have hhalf : (n : ℚ) / d * 2 ^ (-e) < (2 ^ 53 : ℕ) - 1 / 2 := by
      calc (n : ℚ) / d * 2 ^ (-e) < overflow * 2 ^ (-e) := by gcongr
        _ = (2 ^ 53 : ℕ) - 1 / 2 := by rw [htop, overflow_mul_two_zpow]; norm_num
    have hstrict : (q : ℚ) < (2 ^ 53 : ℕ) := by
      calc (q : ℚ) ≤ n / d * 2 ^ (-e) + 1 / 2 := hle
        _ < (2 ^ 53 : ℕ) := by linarith only [hhalf]
    have := Nat.cast_lt.1 hstrict
    rw [htop]
    omega

end Binary64

end Triage
