import Triage.Proofs.Codec.Exact
import Triage.Proofs.Decimal.Shortest

/-!
# What is written of a number can be read

Reading rounds more than once, and so may give another number than the one that was written.  But
it always gives one.  A numeral with a fraction and without an exponent is only ever divided.  One
with an exponent holds all its digits in a word, and stays below the limit unless the number is one
of the three largest, for which the roundings happen to go down.
-/

namespace Triage

namespace Numeral

theorem mul_ten_pow_le_ofDigitChars (cs : List Char) (n : ℕ) :
    n * 10 ^ cs.length ≤ Nat.ofDigitChars 10 cs n := by
  rw [Nat.ofDigitChars_eq_ofDigitChars_zero, Nat.mul_comm]
  exact Nat.le_add_right _ _

theorem le_ofDigitChars (cs : List Char) (n : ℕ) : n ≤ Nat.ofDigitChars 10 cs n :=
  (Nat.le_mul_of_pos_right n (Nat.pow_pos (by norm_num))).trans (mul_ten_pow_le_ofDigitChars cs n)

theorem append?_eq (n : ℕ) (c : Char) :
    append? n c = if 10 * n + (c.toNat - '0'.toNat) < 2 ^ 64 then
      some (10 * n + (c.toNat - '0'.toNat)) else none := by
  have hzero : '0'.toNat = 48 := rfl
  rw [hzero, Nat.mul_comm]
  unfold append?
  simp only [Nat.pow_eq]

/-- Digits before the point that fit a word are all gathered. -/
theorem gatherWhole_eq {cs : List Char} {n : ℕ} (h : Nat.ofDigitChars 10 cs n < 2 ^ 64) :
    gatherWhole n cs = ⟨Nat.ofDigitChars 10 cs n, 0⟩ := by
  induction cs generalizing n with
  | nil => rfl
  | cons c cs ih =>
    rw [Nat.ofDigitChars_cons] at h
    have hfits := (le_ofDigitChars cs _).trans_lt h
    rw [Nat.ofDigitChars_cons, ← ih h]
    simp only [gatherWhole, append?_eq, if_pos hfits]

theorem gatherWhole_digitsOf {n : ℕ} (h : n < 2 ^ 64) :
    gatherWhole 0 (Decimal.digitsOf n) = ⟨n, 0⟩ := by
  have hvalue : Nat.ofDigitChars 10 (Decimal.digitsOf n) 0 = n := Nat.ofDigitChars_ten_toDigits
  have heq := @gatherWhole_eq (Decimal.digitsOf n) 0 (by rwa [hvalue])
  rwa [hvalue] at heq

/-- Digits behind the point never raise the number above the one with all of them. -/
theorem value_gatherFraction_le (d : Decimal) (cs : List Char) :
    (gatherFraction d cs).value ≤
      Nat.ofDigitChars 10 cs d.digits * 10 ^ (d.exponent - cs.length) := by
  induction cs generalizing d with
  | nil => simp [gatherFraction, Decimal.value]
  | cons c cs ih =>
    rw [gatherFraction, append?_eq, Nat.ofDigitChars_cons, List.length_cons]
    split_ifs with hfits
    · have hplace : d.exponent - (cs.length + 1 : ℕ) = d.exponent - 1 - cs.length := by
        push_cast
        ring
      rw [hplace]
      exact ih _
    · have hdigits := mul_ten_pow_le_ofDigitChars (c :: cs) d.digits
      rw [Nat.ofDigitChars_cons, List.length_cons] at hdigits
      have hcast : (d.digits : ℚ) * 10 ^ (cs.length + 1) ≤
          (Nat.ofDigitChars 10 cs (10 * d.digits + (c.toNat - '0'.toNat)) : ℕ) := by
        exact_mod_cast hdigits
      rw [zpow_sub₀ (by norm_num), zpow_natCast, ← mul_div_assoc, le_div_iff₀ (by positivity)]
      calc d.value * 10 ^ (cs.length + 1)
          = d.digits * 10 ^ (cs.length + 1) * 10 ^ d.exponent := by rw [Decimal.value]; ring
        _ ≤ _ := by gcongr

theorem exponent_gatherFraction_le (d : Decimal) (cs : List Char) :
    (gatherFraction d cs).exponent ≤ d.exponent := by
  induction cs generalizing d with
  | nil => exact le_rfl
  | cons c cs ih =>
    rw [gatherFraction]
    rcases append? d.digits c with _ | n
    · exact le_rfl
    · exact (ih _).trans (Int.sub_le_self _ one_pos.le)

/-! ## Numerals -/

variable {n : Numeral}

theorem digit_le_nine {c : Char} (hc : c.isDigit = true) : c.toNat - '0'.toNat ≤ 9 :=
  Nat.sub_le_sub_right (Char.isDigit_iff_toNat.1 hc).2 _

theorem leading_eq (hwhole : n.whole < 2 ^ 64) :
    n.leading = gatherFraction ⟨n.whole, 0⟩ n.fraction := by
  rw [leading, gatherWhole_digitsOf hwhole]

/-- A numeral with a fraction that fits a word and no exponent is read. -/
theorem toBinary64?_isSome_of_fraction (negative : Bool) (hwhole : 10 * n.whole + 9 < 2 ^ 64)
    (hdigits : ∀ c ∈ n.fraction, c.isDigit = true) (hne : n.fraction ≠ [])
    (hexponent : n.exponent = none) : (n.toBinary64? negative).isSome = true := by
  obtain ⟨c, cs, hfraction⟩ := List.exists_cons_of_ne_nil hne
  have hdigit := digit_le_nine (hdigits c (hfraction ▸ List.mem_cons_self))
  have hplace : n.leading.exponent < 0 := by
    have hfits : 10 * n.whole + (c.toNat - '0'.toNat) < 2 ^ 64 := by omega
    rw [leading_eq (by omega), hfraction, gatherFraction, append?_eq, if_pos hfits]
    exact (exponent_gatherFraction_le _ cs).trans_lt (by norm_num)
  rw [toBinary64?, Option.isSome_map, hexponent]
  exact Binary64.scale?_isSome_of_neg _ (by simpa using hplace)

theorem value_leading_le (hwhole : n.whole < 2 ^ 64) :
    n.leading.digits * (10 : ℚ) ^ (n.leading.exponent + n.exponent.getD 0) ≤
      n.toDecimal.value := by
  have hten : (10 : ℚ) ≠ 0 := by norm_num
  have hvalue := value_gatherFraction_le ⟨n.whole, 0⟩ n.fraction
  rw [← leading_eq hwhole, Nat.ofDigitChars_eq_ofDigitChars_zero, ← digitsValue_eq,
    Nat.mul_comm] at hvalue
  calc n.leading.digits * (10 : ℚ) ^ (n.leading.exponent + n.exponent.getD 0)
      = n.leading.value * 10 ^ n.exponent.getD 0 := by
        rw [zpow_add₀ hten, ← mul_assoc, Decimal.value]
    _ ≤ (n.whole * 10 ^ n.fraction.length + digitsValue n.fraction : ℕ) *
          10 ^ (0 - n.fraction.length : ℤ) * 10 ^ n.exponent.getD 0 := by gcongr
    _ = n.toDecimal.value := by
        rw [mul_assoc, ← zpow_add₀ hten, Decimal.value]
        congr 2
        simp only [toDecimal]
        ring

/-- A numeral that stays below the limit by more than two roundings is read. -/
theorem toBinary64?_isSome_of_value (negative : Bool) (hwhole : n.whole < 2 ^ 64)
    (h : n.toDecimal.value * Binary64.slack ^ 2 < Binary64.overflow) :
    (n.toBinary64? negative).isSome = true := by
  rw [toBinary64?, Option.isSome_map]
  apply Binary64.scale?_ofWord_isSome
  refine lt_of_le_of_lt ?_ h
  gcongr
  exact value_leading_le hwhole

end Numeral

namespace Decimal

theorem lt_ten_pow_length (n : ℕ) : n < 10 ^ length n :=
  (Nat.length_toDigits_le_iff (by norm_num) Nat.length_toDigits_pos).1 le_rfl

theorem whole_toPositional_lt {d : Decimal} (pointZero : Bool)
    (h : d.digits = 0 ∨ (length d.digits : ℤ) + d.exponent ≤ 16) :
    (toPositional pointZero d).whole < 10 ^ 16 := by
  have hlength := lt_ten_pow_length d.digits
  by_cases hexponent : 0 ≤ d.exponent
  · simp only [toPositional, if_pos hexponent]
    rcases h with hzero | h
    · simp [hzero]
    · calc d.digits * Nat.pow 10 d.exponent.toNat
          < 10 ^ length d.digits * 10 ^ d.exponent.toNat :=
            Nat.mul_lt_mul_of_pos_right hlength (Nat.pow_pos (by norm_num))
        _ = 10 ^ (length d.digits + d.exponent.toNat) := (pow_add _ _ _).symm
        _ ≤ 10 ^ 16 := Nat.pow_le_pow_right (by norm_num) (by omega)
  by_cases hpoint : 0 < ((digitsOf d.digits).length : ℤ) + d.exponent
  · simp only [toPositional, if_neg hexponent, if_pos hpoint]
    rcases h with hzero | h
    · simp [hzero]
    · refine Nat.div_lt_of_lt_mul (hlength.trans_le ?_)
      rw [Nat.pow_eq, ← pow_add]
      exact Nat.pow_le_pow_right (by norm_num) (by omega)
  · simp only [toPositional, if_neg hexponent, if_neg hpoint]
    norm_num

theorem fraction_toPositional_ne_nil (d : Decimal) : (toPositional true d).fraction ≠ [] := by
  by_cases hexponent : 0 ≤ d.exponent
  · simp [toPositional, if_pos hexponent]
  by_cases hpoint : 0 < ((digitsOf d.digits).length : ℤ) + d.exponent
  · simp only [toPositional, if_neg hexponent, if_pos hpoint, Ne, List.drop_eq_nil_iff]
    omega
  · simp only [toPositional, if_neg hexponent, if_neg hpoint]
    exact List.append_ne_nil_of_right_ne_nil _ (digitsOf_ne_nil _)

theorem exponent_toPositional (pointZero : Bool) (d : Decimal) :
    (toPositional pointZero d).exponent = none := by
  unfold toPositional
  dsimp only
  split_ifs <;> rfl

theorem toDecimal_toScientific (d : Decimal) : (toScientific d).toDecimal = d := by
  obtain ⟨c, cs, hds⟩ := List.exists_cons_of_ne_nil (digitsOf_ne_nil d.digits)
  have hvalue := Numeral.digitsValue_digitsOf d.digits
  rw [hds, Numeral.digitsValue_eq, Nat.ofDigitChars_cons, Nat.ofDigitChars_eq_ofDigitChars_zero,
    ← Numeral.digitsValue_eq, Nat.mul_comm] at hvalue
  have hfirst : Numeral.digitsValue [c] = 10 * 0 + (c.toNat - '0'.toNat) := by
    rw [Numeral.digitsValue_eq, Nat.ofDigitChars_cons, Nat.ofDigitChars_nil]
  rw [← hfirst] at hvalue
  simp only [toScientific, Numeral.toDecimal, hds, List.take_succ_cons, List.take_zero,
    List.drop_succ_cons, List.drop_zero, Nat.pow_eq, hvalue, Option.getD_some, List.length_cons]
  congr 1
  push_cast
  ring

theorem whole_toScientific_lt (d : Decimal) : (toScientific d).whole < 10 := by
  obtain ⟨c, cs, hds⟩ := List.exists_cons_of_ne_nil (digitsOf_ne_nil d.digits)
  have hdigit := Numeral.digit_le_nine (isDigit_of_mem_digitsOf (hds ▸ List.mem_cons_self))
  have hwhole : (toScientific d).whole = c.toNat - '0'.toNat := by
    simp [toScientific, hds, Numeral.digitsValue_eq, Nat.ofDigitChars_cons]
  omega

end Decimal

namespace Binary64

variable {x : Binary64}

theorem exponentField_lt (hfinite : x.isFinite = true) : x.exponentField ≤ 2046 := by
  have hmod : x.exponentField < 2 ^ 11 := Nat.mod_lt _ (by norm_num)
  have hne : x.exponentField ≠ 2 ^ 11 - 1 := by simpa [isFinite] using hfinite
  omega

/-- All but the three largest numbers stay below the limit by more than two roundings. -/
theorem value_next_lt (hfinite : x.isFinite = true)
    (hlow : x.exponentField = 2046 → x.fraction + 3 < 2 ^ 52) :
    (x.significand + 1 / 2 : ℚ) * 2 ^ x.exponent * slack ^ 2 < overflow := by
  have hfield := exponentField_lt hfinite
  have hfraction : x.fraction < 2 ^ 52 := Nat.mod_lt _ (by norm_num)
  rcases hfield.lt_or_eq with hlt | htop
  · have hsignificand : x.significand + 1 ≤ 2 ^ 53 := by
      simp only [significand, Nat.pow_eq]
      split_ifs <;> omega
    have hexponent : x.exponent ≤ 970 := by
      simp only [exponent]
      omega
    have hcast : (x.significand : ℚ) + 1 ≤ 2 ^ 53 := by exact_mod_cast hsignificand
    calc (x.significand + 1 / 2 : ℚ) * 2 ^ x.exponent * slack ^ 2
        ≤ 2 ^ 53 * 2 ^ (970 : ℤ) * slack ^ 2 := by
          gcongr
          · linarith
          · exact one_le_two
      _ = 2 ^ 53 * slack ^ 2 * 2 ^ (970 : ℤ) := by ring
      _ < overflow := mul_lt_mul_of_pos_right (by norm_num [slack]) (by positivity)
  · have hsignificand : x.significand + 4 ≤ 2 ^ 53 := by
      have := hlow htop
      simp only [significand, htop, Nat.pow_eq, if_neg (by norm_num : ¬2046 = 0)]
      omega
    have hexponent : x.exponent = 1 + 970 := by
      simp only [exponent, htop]
      rfl
    have hcast : (x.significand : ℚ) + 4 ≤ 2 ^ 53 := by exact_mod_cast hsignificand
    calc (x.significand + 1 / 2 : ℚ) * 2 ^ x.exponent * slack ^ 2
        ≤ (2 ^ 53 - 7 / 2) * 2 ^ x.exponent * slack ^ 2 := by
          gcongr
          linarith
      _ = (2 ^ 53 - 7 / 2) * 2 * slack ^ 2 * 2 ^ (970 : ℤ) := by
          rw [hexponent, zpow_add₀ two_ne_zero]
          ring
      _ < overflow := mul_lt_mul_of_pos_right (by norm_num [slack]) (by positivity)

/-- The three largest numbers of either sign. -/
theorem largest_read : ∀ negative : Bool, ∀ k ∈ [1, 2, 3],
    ((Decimal.Style.data.numeral (ofMagnitude negative (infinityMagnitude - k))).toBinary64?
      negative).isSome = true := by
  decide +kernel

theorem eq_ofMagnitude (x : Binary64) :
    x = ofMagnitude x.negative (x.exponentField * 2 ^ 52 + x.fraction) := by
  have hbits : x.bits.toNat < 2 ^ 64 := x.bits.toNat_lt
  have hsplit : x.bits.toNat = (if x.negative then Nat.pow 2 63 else 0) +
      (x.exponentField * 2 ^ 52 + x.fraction) := by
    simp only [negative, exponentField, fraction, Nat.pow_eq, decide_eq_true_eq]
    split_ifs <;> omega
  rw [ofMagnitude, ← hsplit, UInt64.ofNat_toNat]

theorem isSome_of_isPositional (h : Decimal.Style.data.isPositional (Decimal.shortest x) = true) :
    ((Decimal.Style.data.numeral x).toBinary64? x.negative).isSome = true := by
  have hnumeral : Decimal.Style.data.numeral x = Decimal.toPositional true (Decimal.shortest x) :=
    if_pos h
  have hplace : (Decimal.shortest x).digits = 0 ∨
      (Decimal.length (Decimal.shortest x).digits : ℤ) + (Decimal.shortest x).exponent ≤ 16 := by
    simp only [Decimal.Style.isPositional, Decimal.Style.data, Bool.or_eq_true, Bool.and_eq_true,
      decide_eq_true_eq] at h
    exact h.imp_right (·.2)
  have hdigits := proper_numeral x.negative x
  rw [JsonNumber.Proper, hnumeral] at hdigits
  rw [hnumeral]
  have hwhole := Decimal.whole_toPositional_lt true hplace
  exact Numeral.toBinary64?_isSome_of_fraction x.negative (by omega) hdigits
    (Decimal.fraction_toPositional_ne_nil _) (Decimal.exponent_toPositional true _)

theorem isSome_of_not_isPositional
    (h : Decimal.Style.data.isPositional (Decimal.shortest x) = false)
    (hnext : (x.significand + 1 / 2 : ℚ) * 2 ^ x.exponent * slack ^ 2 < overflow) :
    ((Decimal.Style.data.numeral x).toBinary64? x.negative).isSome = true := by
  have hnumeral : Decimal.Style.data.numeral x = Decimal.toScientific (Decimal.shortest x) :=
    if_neg (Bool.eq_false_iff.1 h)
  have hnonzero : x.isZero = false := by
    by_contra! hzero
    have hshortest : Decimal.shortest x = ⟨0, 0⟩ := if_pos (by simpa using hzero)
    rw [hshortest] at h
    cases h
  have hwhole := Decimal.whole_toScientific_lt (Decimal.shortest x)
  rw [hnumeral]
  refine Numeral.toBinary64?_isSome_of_value x.negative (by omega) (lt_of_le_of_lt ?_ hnext)
  rw [Decimal.toDecimal_toScientific]
  gcongr
  exact Decimal.value_shortest_le hnonzero

/-- What is written of a finite number can be read. -/
theorem toBinary64?_numeral_isSome (hfinite : x.isFinite = true) :
    ((Decimal.Style.data.numeral x).toBinary64? x.negative).isSome = true := by
  by_cases hlow : x.exponentField = 2046 → x.fraction + 3 < 2 ^ 52
  · rcases h : Decimal.Style.data.isPositional (Decimal.shortest x) with _ | _
    · exact isSome_of_not_isPositional h (value_next_lt hfinite hlow)
    · exact isSome_of_isPositional h
  · have htop : x.exponentField = 2046 ∧ 2 ^ 52 ≤ x.fraction + 3 := by omega
    have hlt : x.fraction < 2 ^ 52 := Nat.mod_lt _ (by norm_num)
    have hmax : infinityMagnitude = 2047 * 2 ^ 52 := by decide
    have hmagnitude : x.exponentField * 2 ^ 52 + x.fraction =
        infinityMagnitude - (2 ^ 52 - x.fraction) := by omega
    have hmem : 2 ^ 52 - x.fraction ∈ [1, 2, 3] := by
      simp only [List.mem_cons, List.not_mem_nil, or_false]
      omega
    have hread := largest_read x.negative _ hmem
    rwa [← hmagnitude, ← eq_ofMagnitude] at hread

end Binary64

/-- A finite number that was written is read as some number. -/
theorem exists_readsAs_of_finite {x : Binary64} (hx : x.isFinite = true) :
    ∃ y : Binary64, ReadsAs x y ∧ toJson x ≠ .null := by
  obtain ⟨y, hy⟩ := Option.isSome_iff_exists.1 (Binary64.toBinary64?_numeral_isSome hx)
  have hform : toJson x = .number ⟨x.negative, Decimal.Style.data.numeral x⟩ := if_pos hx
  refine ⟨y, ⟨proper_binary64 x, ?_⟩, ?_⟩
  · rw [hform]
    exact hy
  · rw [hform]
    nofun

/-- A number that is not finite is written as none. -/
theorem readsAs_none_of_not_finite {x : Binary64} (hx : x.isFinite = false) :
    ReadsAs (some x) (none : Option Binary64) := by
  have hform : toJson (some x) = .null := if_neg (by simp [hx])
  refine ⟨hform ▸ Json.proper_null, ?_⟩
  rw [hform]
  rfl

/-- An effort that was written is read as some effort: one that is not finite as none. -/
theorem exists_readsAs_effort (effort : Option Binary64) :
    ∃ e : Option Binary64, ReadsAs effort e := by
  rcases effort with _ | x
  · exact ⟨none, readsAs_none⟩
  rcases hx : x.isFinite with _ | _
  · exact ⟨none, readsAs_none_of_not_finite hx⟩
  · obtain ⟨y, hy, hpresent⟩ := exists_readsAs_of_finite hx
    exact ⟨some y, hy.some hpresent⟩

end Triage
