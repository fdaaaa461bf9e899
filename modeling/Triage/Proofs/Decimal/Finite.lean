import Triage.Proofs.Decimal.Readable

/-!
# What is read of a numeral is finite

The digits that reading gathers fit a word, so the number nearest to them is finite.  Scaling it up
gives a number only if that is finite, and scaling down never raises it.
-/

namespace Triage

namespace Binary64

variable {x y z : Binary64}

theorem isFinite_ofMagnitude {m : ℕ} (h : m < infinityMagnitude) (negative : Bool) :
    (ofMagnitude negative m).isFinite = true := by
  have hmax : infinityMagnitude = 2047 * 2 ^ 52 := by decide
  have hfield : (ofMagnitude negative m).exponentField = m / 2 ^ 52 := by
    simp only [exponentField, ofMagnitude, UInt64.toNat_ofNat', Nat.pow_eq]
    split_ifs <;> omega
  simp only [isFinite, hfield, decide_eq_true_eq, Nat.pow_eq]
  omega

theorem toNat_bits_ofMagnitude {m : ℕ} (h : m < infinityMagnitude) :
    (ofMagnitude false m).bits.toNat = m := by
  have hmax : infinityMagnitude = 2047 * 2 ^ 52 := by decide
  simp only [ofMagnitude, Bool.false_eq_true, if_false, Nat.zero_add, UInt64.toNat_ofNat']
  exact Nat.mod_eq_of_lt (by omega)

/-- Whether the pattern stands for a real number and has no sign. -/
def IsMagnitude (x : Binary64) : Prop := x.bits.toNat < infinityMagnitude

theorem isMagnitude_ofMagnitude {m : ℕ} (h : m < infinityMagnitude) :
    (ofMagnitude false m).IsMagnitude :=
  (toNat_bits_ofMagnitude h).trans_lt h

theorem IsMagnitude.value_lt (h : x.IsMagnitude) : x.value < overflow := by
  have hmax : infinityMagnitude = 2047 * 2 ^ 52 := by decide
  have hbits : x.bits.toNat < 2047 * 2 ^ 52 := hmax ▸ h
  have hfield : x.exponentField ≤ 2046 := by
    simp only [exponentField, Nat.pow_eq]
    omega
  have hfraction : x.fraction < 2 ^ 52 := Nat.mod_lt _ (by norm_num)
  have hsignificand : x.significand + 1 ≤ 2 ^ 53 := by
    simp only [significand, Nat.pow_eq]
    split_ifs <;> omega
  have hexponent : x.exponent ≤ 1 + 970 := by
    simp only [exponent]
    omega
  have hcast : (x.significand : ℚ) + 1 ≤ 2 ^ 53 := by exact_mod_cast hsignificand
  calc x.value ≤ (2 ^ 53 - 1) * 2 ^ (1 + 970 : ℤ) := by
        unfold value
        gcongr
        · linarith
        · exact one_le_two
    _ = (2 ^ 53 - 1) * 2 * 2 ^ (970 : ℤ) := by
        rw [zpow_add₀ two_ne_zero, zpow_one]
        ring
    _ < overflow := mul_lt_mul_of_pos_right (by norm_num) (by positivity)

/-! ## Steps -/

theorem isMagnitude_ofWord {n : ℕ} (h : (n : ℚ) < overflow) : (ofWord n).IsMagnitude :=
  isMagnitude_ofMagnitude (nearestScaled_lt_infinity one_ne_zero (by simpa using h))

theorem isMagnitude_of_times? (h : x.times? y = some z) : z.IsMagnitude := by
  unfold times? at h
  dsimp only at h
  split_ifs at h with hfinite
  cases h
  exact isMagnitude_ofMagnitude hfinite

/-- A quotient by a number that is at least one lies no higher than what is divided. -/
theorem IsMagnitude.quotient (hx : x.IsMagnitude) (hy : 1 ≤ y.value) :
    (x.quotient y).IsMagnitude := by
  have hpos : 0 < y.value := one_pos.trans_le hy
  have hsignificand : y.significand ≠ 0 := by
    rintro hzero
    simp [value, hzero] at hpos
  refine isMagnitude_ofMagnitude (nearestScaled_lt_infinity hsignificand ?_)
  calc (x.significand : ℚ) / y.significand * 2 ^ (x.exponent - y.exponent)
      = x.value / y.value := by
        rw [value, value, zpow_sub₀ two_ne_zero, div_mul_div_comm]
    _ ≤ x.value := div_le_self x.value_nonneg hy
    _ < overflow := hx.value_lt

theorem one_le_value_powerOfTen {k : ℕ} (hk : k ≤ maxTens) : 1 ≤ (powerOfTen k).value := by
  have hcast : ((10 ^ k : ℕ) : ℚ) = 10 ^ k := by push_cast; rfl
  exact (value_ofWord (Nat.pow_pos (n := k) (by norm_num : 0 < 10)).ne'
    (hcast ▸ ten_pow_lt_overflow hk)).1

theorem IsMagnitude.of_scale? {e : ℤ} (hx : x.IsMagnitude) (h : x.scale? e = some z) :
    z.IsMagnitude := by
  induction x, e using scale?.induct with
  | case1 x e hsmall hnonneg =>
    rw [scale?, if_pos hsmall, if_pos hnonneg] at h
    exact isMagnitude_of_times? h
  | case2 x e hsmall hneg =>
    rw [scale?, if_pos hsmall, if_neg hneg] at h
    cases h
    exact hx.quotient (one_le_value_powerOfTen hsmall)
  | case3 x e hlarge hzero =>
    rw [scale?, if_neg hlarge, if_pos hzero] at h
    cases h
    exact hx
  | case4 x e hlarge hne hnonneg =>
    rw [scale?, if_neg hlarge, if_neg hne, if_pos hnonneg] at h
    cases h
  | case5 x e hlarge hne hneg ih =>
    rw [scale?, if_neg hlarge, if_neg hne, if_neg hneg] at h
    exact ih (hx.quotient (one_le_value_powerOfTen le_rfl)) h

end Binary64

/-! ## Numerals -/

namespace Numeral

variable {n : ℕ} {cs : List Char}

theorem lt_of_append? {m : ℕ} {c : Char} (h : append? n c = some m) : m < 2 ^ 64 := by
  rw [append?_eq] at h
  split_ifs at h with hfits
  cases h
  exact hfits

theorem digits_gatherWhole_lt (h : n < 2 ^ 64) : (gatherWhole n cs).digits < 2 ^ 64 := by
  induction cs generalizing n with
  | nil => exact h
  | cons c cs ih =>
    rw [gatherWhole]
    rcases happend : append? n c with _ | m
    · exact h
    · exact ih (lt_of_append? happend)

theorem digits_gatherFraction_lt {d : Decimal} (h : d.digits < 2 ^ 64) :
    (gatherFraction d cs).digits < 2 ^ 64 := by
  induction cs generalizing d with
  | nil => exact h
  | cons c cs ih =>
    rw [gatherFraction]
    rcases happend : append? d.digits c with _ | m
    · exact h
    · exact ih (lt_of_append? happend)

theorem digits_leading_lt (n : Numeral) : n.leading.digits < 2 ^ 64 :=
  digits_gatherFraction_lt (digits_gatherWhole_lt (by norm_num))

/-- A number that a numeral is read as is finite. -/
theorem isFinite_of_toBinary64? {n : Numeral} {negative : Bool} {x : Binary64}
    (h : n.toBinary64? negative = some x) : x.isFinite = true := by
  obtain ⟨z, hz, rfl⟩ := Option.map_eq_some_iff.1 h
  have hword : (n.leading.digits : ℚ) < Binary64.overflow := by
    calc (n.leading.digits : ℚ) < 2 ^ 64 := by exact_mod_cast n.digits_leading_lt
      _ ≤ 10 ^ 20 := by norm_num
      _ < Binary64.overflow := Binary64.ten_pow_lt_overflow (by decide)
  exact Binary64.isFinite_ofMagnitude ((Binary64.isMagnitude_ofWord hword).of_scale? hz) negative

end Numeral

end Triage
