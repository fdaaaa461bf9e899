import Triage.Decimal.Shortest
import Triage.Proofs.Decimal.Stepwise

/-!
# The shortest decimal number is close

The decimal number that is written for a finite number lies at most half a unit in the last place
above it.
-/

namespace Triage

namespace Decimal

/-- The number that a decimal stands for. -/
def value (d : Decimal) : ℚ := d.digits * 10 ^ d.exponent

theorem value_stripZeros (fuel : ℕ) (d : Decimal) : (stripZeros fuel d).value = d.value := by
  induction fuel generalizing d with
  | zero => rfl
  | succ fuel ih =>
    rw [stripZeros]
    split_ifs with h
    · obtain ⟨k, hk⟩ := Nat.dvd_of_mod_eq_zero h.2
      rw [ih, value, value, hk, Nat.mul_div_cancel_left k (by norm_num),
        zpow_add_one₀ (by norm_num)]
      push_cast
      ring
    · rfl

namespace Interval

variable {i : Interval} {g : ℤ} {c h : ℕ}

/-- A comparison in the common unit is one of the numbers. -/
theorem value_le_of_mul_le (hle : c * i.decimalFactor g ≤ h * i.binaryFactor g) :
    (c : ℚ) * 10 ^ g ≤ h * 2 ^ i.scale := by
  rw [zpow_eq_div, zpow_eq_div, ← mul_div_assoc, ← mul_div_assoc,
    div_le_div_iff₀ (by positivity) (by positivity), mul_assoc, mul_assoc]
  simp only [decimalFactor, binaryFactor, Nat.pow_eq] at hle
  exact_mod_cast hle

theorem value_le_of_holds (hc : i.holds g c = true) : (c : ℚ) * 10 ^ g ≤ i.high * 2 ^ i.scale := by
  apply value_le_of_mul_le
  simp only [holds] at hc
  split_ifs at hc with hclosed
  · simp only [Bool.and_eq_true, decide_eq_true_eq] at hc
    exact hc.2
  · simp only [Bool.and_eq_true, decide_eq_true_eq] at hc
    exact hc.2.le

theorem value_floor_le (hmid : i.mid ≤ i.high) (g : ℤ) :
    (i.floor g : ℚ) * 10 ^ g ≤ i.high * 2 ^ i.scale := by
  apply value_le_of_mul_le
  calc i.floor g * i.decimalFactor g ≤ i.mid * i.binaryFactor g := Nat.div_mul_le_self _ _
    _ ≤ i.high * i.binaryFactor g := Nat.mul_le_mul_right _ hmid

theorem value_pick?_le {d : Decimal} (hd : i.pick? g = some d) :
    d.value ≤ i.high * 2 ^ i.scale := by
  simp only [pick?] at hd
  split at hd
  · next hlow hhigh =>
    obtain rfl := Option.some.inj hd
    split_ifs
    · exact value_le_of_holds hlow
    · exact value_le_of_holds hhigh
  · next hlow _ =>
    obtain rfl := Option.some.inj hd
    exact value_le_of_holds hlow
  · next _ hhigh =>
    obtain rfl := Option.some.inj hd
    exact value_le_of_holds hhigh
  · cases hd

theorem value_search_le (hmid : i.mid ≤ i.high) (fuel : ℕ) (g : ℤ) :
    (i.search fuel g).value ≤ i.high * 2 ^ i.scale := by
  induction fuel generalizing g with
  | zero => exact value_floor_le hmid g
  | succ fuel ih =>
    rw [search]
    rcases hpick : i.pick? g with _ | d
    · exact ih (g - 1)
    · exact value_pick?_le hpick

end Interval

theorem value_shortest_le {x : Binary64} (hx : x.isZero = false) :
    (shortest x).value ≤ (x.significand + 1 / 2) * 2 ^ x.exponent := by
  have hhalf : ((Interval.of x).high : ℚ) * 2 ^ (Interval.of x).scale =
      (x.significand + 1 / 2) * 2 ^ x.exponent := by
    simp only [Interval.of]
    rw [zpow_sub₀ (two_ne_zero : (2 : ℚ) ≠ 0)]
    push_cast
    ring
  rw [shortest, hx, if_neg Bool.false_ne_true, value_stripZeros, ← hhalf]
  exact Interval.value_search_le (Nat.le_add_right _ _) _ _

end Decimal

end Triage
