import Triage.Decimal.Stepwise
import Triage.Proofs.Decimal.Rounding

/-!
# Rounding step by step

A word, a power of ten and their product are each rounded.  The product is finite if the number
lies further below the middle behind the largest finite number than the two roundings reach.
-/

namespace Triage

namespace Binary64

/-- The number that a pattern without a sign stands for. -/
def value (x : Binary64) : ℚ := x.significand * 2 ^ x.exponent

/-- The largest factor by which rounding raises a number that is not too small. -/
def slack : ℚ := 1 + 2 ^ (-53 : ℤ)

theorem value_nonneg (x : Binary64) : 0 ≤ x.value := by
  unfold value
  positivity

theorem value_ofMagnitude {k q : ℕ} (hlow : 2 ^ 52 ≤ q) (hhigh : q ≤ 2 ^ 53)
    (hfinite : k * 2 ^ 52 + q < infinityMagnitude) :
    (ofMagnitude false (k * 2 ^ 52 + q)).value = q * 2 ^ (k - 1074 : ℤ) := by
  have hmax : infinityMagnitude = 2047 * 2 ^ 52 := by decide
  have hbits : (ofMagnitude false (k * 2 ^ 52 + q)).bits.toNat = k * 2 ^ 52 + q := by
    simp only [ofMagnitude, Bool.false_eq_true, if_false, Nat.zero_add, UInt64.toNat_ofNat']
    exact Nat.mod_eq_of_lt (by omega)
  simp only [value, significand, exponent, exponentField, fraction, hbits, Nat.pow_eq]
  rcases hhigh.lt_or_eq with hlt | rfl
  · have hfield : (k * 2 ^ 52 + q) / 2 ^ 52 % 2 ^ 11 = k + 1 := by omega
    have hfraction : (k * 2 ^ 52 + q) % 2 ^ 52 = q - 2 ^ 52 := by omega
    have hplace : ((max (k + 1) 1 : ℕ) : ℤ) - 1075 = k - 1074 := by omega
    rw [hfield, hfraction, hplace, if_neg (Nat.succ_ne_zero k), Nat.add_sub_cancel' hlow]
  · have hfield : (k * 2 ^ 52 + 2 ^ 53) / 2 ^ 52 % 2 ^ 11 = k + 2 := by omega
    have hfraction : (k * 2 ^ 52 + 2 ^ 53) % 2 ^ 52 = 0 := by omega
    have hplace : ((max (k + 2) 1 : ℕ) : ℤ) - 1075 = 1 + (k - 1074) := by omega
    rw [hfield, hfraction, hplace, if_neg (Nat.succ_ne_zero _), Nat.add_zero,
      zpow_add₀ two_ne_zero, zpow_one, ← mul_assoc]
    norm_num

/-! ## Words and powers of ten -/

theorem ofWord_eq {n : ℕ} (hn : n ≠ 0) :
    ofWord n = ofMagnitude false (Decimal.nearestMagnitude n 1) := by
  simp [ofWord, nearestScaled, hn]

/-- The number nearest to a positive word is at least one, and little larger than the word. -/
theorem value_ofWord {n : ℕ} (hn : n ≠ 0) (h : (n : ℚ) < overflow) :
    1 ≤ (ofWord n).value ∧ (ofWord n).value ≤ n * slack := by
  have hfinite : Decimal.nearestMagnitude n 1 < infinityMagnitude :=
    nearestMagnitude_lt_infinity hn one_ne_zero (by simpa using h)
  obtain ⟨q, hq, hle, hhigh, hcount⟩ := Decimal.nearestMagnitude_bounds hn one_ne_zero
  obtain ⟨-, hlt, hplace⟩ := Decimal.lastPlace_bounds hn one_ne_zero
  set e := Decimal.lastPlace n 1
  have hone : (1 : ℚ) ≤ n := by exact_mod_cast Nat.one_le_iff_ne_zero.2 hn
  have hexp : -52 ≤ e := by
    have hpow : (2 : ℚ) ^ (0 : ℤ) < 2 ^ (e + 53) := by
      rw [zpow_zero]
      calc (1 : ℚ) ≤ n := hone
        _ < 2 ^ (e + 53) := by simpa using hlt
    have := (zpow_lt_zpow_iff_right₀ one_lt_two).1 hpow
    omega
  have hlow : 2 ^ 52 ≤ q := hcount.resolve_left (by omega)
  have hbelow : (2 : ℚ) ^ (e + 52) ≤ n := by
    simpa using hplace.resolve_left (by omega)
  have hvalue : (ofWord n).value = q * 2 ^ e := by
    rw [ofWord_eq hn, hq, value_ofMagnitude hlow hhigh (hq ▸ hfinite)]
    congr 2
    omega
  rw [hvalue]
  constructor
  · calc (1 : ℚ) = (2 ^ 52 : ℕ) * 2 ^ (-52 : ℤ) := by norm_num
      _ ≤ q * 2 ^ e := by gcongr; exact one_le_two
  · calc (q : ℚ) * 2 ^ e ≤ (n / (1 : ℕ) * 2 ^ (-e) + 1 / 2) * 2 ^ e := by gcongr
      _ = n + 2 ^ (e + 52) * 2 ^ (-53 : ℤ) := by
        rw [← zpow_add₀ two_ne_zero, show e + 52 + -53 = -1 + e by ring, zpow_add₀ two_ne_zero,
          add_mul, Nat.cast_one, div_one, mul_assoc, ← zpow_add₀ two_ne_zero]
        norm_num
      _ ≤ n + n * 2 ^ (-53 : ℤ) := by gcongr
      _ = n * slack := by rw [slack]; ring

theorem ten_pow_lt_overflow {k : ℕ} (hk : k ≤ maxTens) : (10 : ℚ) ^ k < overflow := by
  have hroot : (10 : ℚ) ^ 77 ≤ 222 * 2 ^ 248 := by norm_num
  calc (10 : ℚ) ^ k ≤ 10 ^ (77 * 4) := pow_le_pow_right₀ (by norm_num) hk
    _ = (10 ^ 77) ^ 4 := pow_mul _ _ _
    _ ≤ (222 * 2 ^ 248) ^ 4 := by gcongr
    _ = 222 ^ 4 * 2 ^ 22 * 2 ^ (970 : ℤ) := by
      rw [mul_pow, ← pow_mul, mul_assoc, ← zpow_natCast, ← zpow_natCast 2 22,
        ← zpow_add₀ two_ne_zero]
      rfl
    _ < overflow := mul_lt_mul_of_pos_right (by norm_num) (by positivity)

theorem overflow_lt_ten_pow : overflow < 10 ^ (maxTens + 1) := by
  have hroot : (2 : ℚ) ^ 256 ≤ 12 * 10 ^ 76 := by norm_num
  calc overflow < 2 ^ (1024 : ℤ) := overflow_lt
    _ = (2 ^ 256) ^ 4 := by rw [← pow_mul]; rfl
    _ ≤ (12 * 10 ^ 76) ^ 4 := by gcongr
    _ = 12 ^ 4 * 10 ^ (76 * 4) := by rw [mul_pow, ← pow_mul]
    _ ≤ 10 ^ 5 * 10 ^ (76 * 4) := by gcongr; norm_num
    _ = 10 ^ (maxTens + 1) := by rw [← pow_add]; rfl

theorem value_powerOfTen {k : ℕ} (hk : k ≤ maxTens) :
    (powerOfTen k).value ≤ 10 ^ k * slack := by
  have hcast : ((10 ^ k : ℕ) : ℚ) = 10 ^ k := by push_cast; rfl
  have hvalue := value_ofWord (Nat.pow_pos (n := k) (by norm_num : 0 < 10)).ne'
    (hcast ▸ ten_pow_lt_overflow hk)
  rw [hcast] at hvalue
  exact hvalue.2

/-! ## Scaling -/

theorem nearestScaled_lt_infinity {n d : ℕ} {e : ℤ} (hd : d ≠ 0)
    (h : (n : ℚ) / d * 2 ^ e < overflow) : nearestScaled n d e < infinityMagnitude := by
  unfold nearestScaled
  split_ifs with hn
  · decide
  have hpow : ∀ k : ℤ, Nat.pow 2 k.toNat ≠ 0 := fun k => (Nat.pow_pos two_pos).ne'
  refine nearestMagnitude_lt_infinity (mul_ne_zero hn (hpow e)) (mul_ne_zero hd (hpow (-e))) ?_
  rw [zpow_eq_div, div_mul_div_comm] at h
  push_cast [Nat.pow_eq]
  exact h

theorem times?_isSome {x y : Binary64} (h : x.value * y.value < overflow) :
    (x.times? y).isSome = true := by
  have hproduct : ((x.significand * y.significand : ℕ) : ℚ) / (1 : ℕ) *
      2 ^ (x.exponent + y.exponent) = x.value * y.value := by
    rw [value, value, zpow_add₀ two_ne_zero]
    push_cast
    ring
  have hfinite := nearestScaled_lt_infinity one_ne_zero (hproduct ▸ h)
  simp only [times?, if_pos hfinite, Option.isSome_some]

theorem scale?_isSome_of_neg (x : Binary64) {e : ℤ} (he : e < 0) : (x.scale? e).isSome = true := by
  induction x, e using scale?.induct with
  | case1 x e hsmall hnonneg => omega
  | case2 x e hsmall hneg => rw [scale?, if_pos hsmall, if_neg hneg]; rfl
  | case3 x e hlarge hzero => rw [scale?, if_neg hlarge, if_pos hzero]; rfl
  | case4 x e hlarge hne hnonneg => omega
  | case5 x e hlarge hne hneg ih =>
    rw [scale?, if_neg hlarge, if_neg hne, if_neg hneg]
    have hmax : maxTens = 308 := rfl
    exact ih (by omega)

theorem scale?_ofWord_zero (k : ℕ) : ((ofWord 0).scale? k).isSome = true := by
  have hsignificand : (ofWord 0).significand = 0 := by decide
  have hzero : (ofWord 0).isZero = true := by decide
  rw [scale?]
  by_cases hk : (k : ℤ).natAbs ≤ maxTens
  · have hproduct : (ofWord 0).value * (powerOfTen (k : ℤ).toNat).value = 0 := by
      simp [value, hsignificand]
    rw [if_pos hk, if_pos (Int.natCast_nonneg k)]
    refine times?_isSome (hproduct ▸ ?_)
    exact lt_trans (by norm_num) (ten_pow_lt_overflow (Nat.zero_le _))
  · rw [if_neg hk, if_pos hzero]
    rfl

/-- A word scaled by a power of ten is finite if two roundings do not reach the middle behind the
largest finite number. -/
theorem scale?_ofWord_isSome {n : ℕ} {e : ℤ}
    (h : (n : ℚ) * 10 ^ e * slack ^ 2 < overflow) :
    ((ofWord n).scale? e).isSome = true := by
  have hslack : 1 ≤ slack := by norm_num [slack]
  rcases lt_or_ge e 0 with hneg | hnonneg
  · exact scale?_isSome_of_neg _ hneg
  obtain ⟨k, rfl⟩ := Int.eq_ofNat_of_zero_le hnonneg
  rcases eq_or_ne n 0 with rfl | hn
  · exact scale?_ofWord_zero k
  rw [zpow_natCast] at h
  have hone : (1 : ℚ) ≤ n := by exact_mod_cast Nat.one_le_iff_ne_zero.2 hn
  have hten : (1 : ℚ) ≤ 10 ^ k := one_le_pow₀ (by norm_num)
  have hsquare : 1 ≤ slack ^ 2 := one_le_pow₀ hslack
  have hfits : (n : ℚ) < overflow := by
    calc (n : ℚ) = n * 1 * 1 := by ring
      _ ≤ n * 10 ^ k * slack ^ 2 := by gcongr
      _ < overflow := h
  have hk : k ≤ maxTens := by
    have hpow : (10 : ℚ) ^ k < 10 ^ (maxTens + 1) := by
      calc (10 : ℚ) ^ k = 1 * 10 ^ k * 1 := by ring
        _ ≤ n * 10 ^ k * slack ^ 2 := by gcongr
        _ < overflow := h
        _ < 10 ^ (maxTens + 1) := overflow_lt_ten_pow
    exact Nat.lt_succ_iff.1 ((pow_lt_pow_iff_right₀ (by norm_num)).1 hpow)
  have hword := (value_ofWord hn hfits).2
  rw [scale?, if_pos (show (k : ℤ).natAbs ≤ maxTens from hk), if_pos (Int.natCast_nonneg k)]
  refine times?_isSome ?_
  calc (ofWord n).value * (powerOfTen k).value
      ≤ n * slack * (10 ^ k * slack) :=
        mul_le_mul hword (value_powerOfTen hk) (value_nonneg _) (by positivity)
    _ = n * 10 ^ k * slack ^ 2 := by ring
    _ < overflow := h

end Binary64

end Triage
