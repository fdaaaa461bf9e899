import Mathlib.Data.List.TakeDrop
import Mathlib.Data.List.TakeWhile
import Mathlib.Tactic.SplitIfs
import Triage.Json.Basic

/-!
# Numbers are read as they are written

The characters of a number whose fraction consists of digits are read as that number.  Its parts
follow one another without marks, so what is to be shown is where each one ends: before a character
that is not a digit.
-/

namespace Triage

/-- Whether the text does not go on with a digit. -/
def EndsDigits (cs : List Char) : Prop := ∀ c ∈ cs.head?, c.isDigit = false

namespace Numeral

theorem digitsValue_eq (ds : List Char) : digitsValue ds = Nat.ofDigitChars 10 ds 0 := by
  simp only [digitsValue, Nat.ofDigitChars_eq_foldl, Nat.mul_comm]
  rfl

theorem digitsValue_digitsOf (n : Nat) : digitsValue (Decimal.digitsOf n) = n := by
  rw [digitsValue_eq]
  exact Nat.ofDigitChars_ten_toDigits

end Numeral

namespace Decimal

theorem isDigit_of_mem_digitsOf {n : Nat} {c : Char} (hc : c ∈ digitsOf n) : c.isDigit = true :=
  Nat.isDigit_of_mem_toDigits (by decide) (by decide) hc

theorem digitsOf_ne_nil (n : Nat) : digitsOf n ≠ [] := Nat.toDigits_ne_nil

/-- Only a zero starts with a zero. -/
theorem head_digitsOf {n : Nat} (hn : n ≠ 0) : (digitsOf n).head? ≠ some '0' := by
  induction n using Nat.strongRecOn with
  | _ n ih =>
    by_cases hlt : n < 10
    · rw [digitsOf, Nat.toDigits_of_lt_base hlt]
      simpa using hn
    · have hne : n / 10 ≠ 0 := by omega
      have hhead := ih (n / 10) (by omega) hne
      rw [digitsOf] at hhead
      rw [digitsOf, Nat.toDigits_of_base_le (by decide) (by omega), List.head?_append]
      rcases hds : Nat.toDigits 10 (n / 10) with _ | ⟨d, ds⟩
      · exact absurd hds Nat.toDigits_ne_nil
      · rwa [hds] at hhead

theorem wholeOf?_digitsOf (n : Nat) : JsonNumber.wholeOf? (digitsOf n) = some n := by
  have hzero : ¬((digitsOf n).head? = some '0' ∧ (digitsOf n).length ≠ 1) := by
    rintro ⟨hhead, hlength⟩
    by_cases hn : n = 0
    · subst hn
      exact hlength rfl
    · exact head_digitsOf hn hhead
  have hempty := digitsOf_ne_nil n
  rw [JsonNumber.wholeOf?, if_neg, Numeral.digitsValue_digitsOf]
  simpa [hempty] using hzero

end Decimal

namespace JsonNumber

/-- Whether the digits behind the point are digits. -/
def Proper (n : JsonNumber) : Prop := ∀ c ∈ n.numeral.fraction, c.isDigit = true

theorem takeDigits_append {ds rest : List Char} (hds : ∀ c ∈ ds, c.isDigit = true)
    (hrest : EndsDigits rest) : takeDigits (ds ++ rest) = (ds, rest) := by
  have htake : rest.takeWhile Char.isDigit = [] := by
    rcases rest with _ | ⟨c, rest⟩
    · rfl
    · exact List.takeWhile_cons_of_neg (by simp [hrest c rfl])
  have hdrop : rest.dropWhile Char.isDigit = rest := by
    rcases rest with _ | ⟨c, rest⟩
    · rfl
    · exact List.dropWhile_cons_of_neg (by simp [hrest c rfl])
  rw [takeDigits, List.span_eq_takeWhile_dropWhile, List.takeWhile_append_of_pos hds,
    List.dropWhile_append_of_pos hds, htake, hdrop, List.append_nil]

theorem endsDigits_exponentChars (e : Option Int) : EndsDigits (Numeral.exponentChars e) := by
  rcases e with _ | e
  · exact nofun
  · rintro _ ⟨⟩
    rfl

theorem exponentOf?_exponentChars (e : Option Int) :
    exponentOf? (Numeral.exponentChars e) = some e := by
  rcases e with _ | e
  · rfl
  have hds : (!(Decimal.digitsOf e.natAbs).isEmpty &&
      (Decimal.digitsOf e.natAbs).all Char.isDigit) = true := by
    have hall : ∀ c ∈ Decimal.digitsOf e.natAbs, c.isDigit = true :=
      fun c => Decimal.isDigit_of_mem_digitsOf
    simpa [Decimal.digitsOf_ne_nil] using hall
  by_cases he : 0 ≤ e
  · simp only [Numeral.exponentChars, if_pos he, exponentOf?, true_or, if_true, hds,
      Numeral.digitsValue_digitsOf, Bool.false_eq_true, if_false]
    rw [Int.natAbs_of_nonneg he]
  · simp only [Numeral.exponentChars, if_neg he, exponentOf?, true_or, if_true, hds,
      Numeral.digitsValue_digitsOf]
    rw [Int.ofNat_natAbs_of_nonpos (by omega), Int.neg_neg]

theorem fractionOf?_append {ds : List Char} (hds : ∀ c ∈ ds, c.isDigit = true)
    (e : Option Int) :
    fractionOf? ((if ds.isEmpty then [] else '.' :: ds) ++ Numeral.exponentChars e) =
      some (ds, Numeral.exponentChars e) := by
  rcases ds with _ | ⟨d, ds⟩
  · rcases e with _ | e <;> rfl
  · have htake := takeDigits_append hds (endsDigits_exponentChars e)
    simp only [List.isEmpty_cons, Bool.false_eq_true, if_false, List.cons_append, fractionOf?]
    rw [List.cons_append] at htake
    rw [htake]
    rfl

theorem ofChars?_unsigned {c : Char} {cs : List Char} (hc : c ≠ '-') :
    ofChars? (c :: cs) = (ofChars? ('-' :: c :: cs)).map fun n => { n with negative := false } := by
  simp only [ofChars?, List.cons.injEq, hc, false_and, imp_self, implies_true, Option.pure_def,
    Option.bind_eq_bind, Option.map_bind, Function.comp_def, Option.map_some]

theorem ofChars?_chars {n : JsonNumber} (h : n.Proper) : ofChars? n.chars = some n := by
  obtain ⟨negative, whole, fraction, exponent⟩ := n
  have hrest : EndsDigits ((if fraction.isEmpty then [] else '.' :: fraction) ++
      Numeral.exponentChars exponent) := by
    rcases fraction with _ | ⟨d, ds⟩
    · exact endsDigits_exponentChars exponent
    · rintro _ ⟨⟩
      rfl
  have htake := takeDigits_append (fun c => Decimal.isDigit_of_mem_digitsOf (n := whole)) hrest
  have hsigned : ofChars? ('-' :: Numeral.chars ⟨whole, fraction, exponent⟩) =
      some ⟨true, whole, fraction, exponent⟩ := by
    simp only [Numeral.chars, List.append_assoc, ofChars?, htake, Decimal.wholeOf?_digitsOf,
      fractionOf?_append h, exponentOf?_exponentChars, Option.bind_eq_bind, Option.bind_some]
    rfl
  cases negative with
  | true => exact hsigned
  | false =>
    obtain ⟨d, ds, hds⟩ := List.exists_cons_of_ne_nil (Decimal.digitsOf_ne_nil whole)
    have hd : d ≠ '-' := by
      rintro rfl
      cases Decimal.isDigit_of_mem_digitsOf (hds ▸ List.mem_cons_self)
    have hchars : chars ⟨false, whole, fraction, exponent⟩ =
        Numeral.chars ⟨whole, fraction, exponent⟩ := rfl
    simp only [Numeral.chars, hds, List.cons_append] at hsigned
    rw [hchars, Numeral.chars, hds, List.cons_append, List.cons_append, ofChars?_unsigned hd,
      hsigned]
    rfl

end JsonNumber

end Triage
