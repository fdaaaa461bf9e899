import Triage.Proofs.Json.Read

/-!
# Printed values

Control characters are escaped in strings and occur nowhere else, so that a value is printed on one
line, whatever texts are in it.
-/

namespace Triage.Json

variable {c d : Char}

theorem space_le_of_isNumberChar (h : isNumberChar c = true) : 0x20 ≤ c.toNat := by
  simp only [isNumberChar, Bool.or_eq_true, decide_eq_true_eq] at h
  rcases h with ((((h | rfl) | rfl) | rfl) | rfl) | rfl
  · have hzero : '0'.toNat ≤ c.toNat := (Char.isDigit_iff_toNat.1 h).1
    have hspace : 0x20 ≤ '0'.toNat := by decide
    omega
  all_goals decide

theorem space_le_of_mem {cs : List Char} (hcs : cs.all (fun c => 0x20 ≤ c.toNat) = true)
    (h : c ∈ cs) : 0x20 ≤ c.toNat :=
  of_decide_eq_true (List.all_eq_true.1 hcs c h)

/-- What stands for a character in a string is no control character, even if that one is. -/
theorem space_le_of_mem_escapeChar (h : d ∈ escapeChar c) : 0x20 ≤ d.toNat := by
  have hhex : ∀ n < 0x20, (Text.hexDigits 4 n).all (fun c => 0x20 ≤ c.toNat) = true := by decide
  unfold escapeChar at h
  split_ifs at h with _ _ _ _ _ _ _ hcontrol
  any_goals
    refine space_le_of_mem ?_ h
    decide
  · have hescape : ['\\', 'u'].all (fun c => 0x20 ≤ c.toNat) = true := by decide
    have happend : d ∈ ['\\', 'u'] ++ Text.hexDigits 4 c.toNat := h
    rcases List.mem_append.1 happend with h | h
    · exact space_le_of_mem hescape h
    · exact space_le_of_mem (hhex c.toNat hcontrol) h
  · rw [List.mem_singleton.1 h]
    exact Nat.le_of_not_lt hcontrol

theorem space_le_of_mem_chars {t : Token} (ht : t.Proper) (h : c ∈ t.chars) : 0x20 ≤ c.toNat := by
  cases t with
  | number n => exact space_le_of_isNumberChar (Scanner.isNumberChar_of_mem_chars ht h)
  | string s =>
    simp only [Token.chars, quoted, List.cons_append, List.mem_cons, List.mem_append,
      List.mem_flatMap, List.not_mem_nil, or_false] at h
    rcases h with rfl | ⟨d, -, h⟩ | rfl
    · decide
    · exact space_le_of_mem_escapeChar h
    · decide
  | bool b => cases b <;> exact space_le_of_mem (by decide) h
  | openArray | closeArray | openObject | closeObject | comma | colon | null =>
    exact space_le_of_mem (by decide) h

/-- No control character stands in a printed value. -/
theorem space_le_of_mem_print {j : Json} (hj : j.Proper) (h : c ∈ j.print.toList) :
    0x20 ≤ c.toNat := by
  rw [print, String.toList_ofList] at h
  obtain ⟨t, ht, hc⟩ := List.mem_flatMap.1 h
  exact space_le_of_mem_chars (hj t ht) hc

end Triage.Json
