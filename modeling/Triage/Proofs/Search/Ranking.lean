import Mathlib.Data.List.Sort

/-!
# Rankings

Orders in which each item stands before another, behind it, or level with it.  Items that are not
level have one sorted list only, and a sort by rank first and then by another order is the sort by
both.
-/

namespace Triage

variable {α β : Type} {r : α → α → Prop}

/-- Whether `r` ranks: of two items at most one stands before the other, and not to stand behind is
transitive. -/
structure IsRanking (r : α → α → Prop) : Prop where
  asymm : ∀ {a b}, r a b → ¬r b a
  negTrans : ∀ {a b c}, ¬r b a → ¬r c b → ¬r c a

/-- The order by `rank` and, where that is level, by `r`. -/
def ByRank (rank : α → Int) (r : α → α → Prop) (a b : α) : Prop :=
  rank a < rank b ∨ rank a = rank b ∧ r a b

namespace IsRanking

theorem irrefl (h : IsRanking r) (a : α) : ¬r a a := fun ha => h.asymm ha ha

theorem comap {s : β → β → Prop} (h : IsRanking s) (f : α → β) :
    IsRanking fun a b => s (f a) (f b) where
  asymm := h.asymm
  negTrans := h.negTrans

theorem byRank (h : IsRanking r) (rank : α → Int) : IsRanking (ByRank rank r) where
  asymm := by
    rintro a b (hab | ⟨hab, hr⟩) (hba | ⟨hba, hr'⟩)
    · omega
    · omega
    · omega
    · exact h.asymm hr hr'
  negTrans {a b c} hba hcb := by
    unfold ByRank at *
    rw [not_or] at hba hcb
    rintro (hca | ⟨hca, hr⟩)
    · omega
    · -- all three are level by rank
      refine h.negTrans (fun hr' => hba.2 ⟨?_, hr'⟩) (fun hr' => hcb.2 ⟨?_, hr'⟩) hr <;> omega

end IsRanking

theorem byRank_or_byRank {rank : α → Int} {a b : α} (h : rank a = rank b → r a b ∨ r b a) :
    ByRank rank r a b ∨ ByRank rank r b a := by
  rcases lt_trichotomy (rank a) (rank b) with hlt | heq | hlt
  · exact .inl (.inl hlt)
  · exact (h heq).imp (fun hr => .inr ⟨heq, hr⟩) fun hr => .inr ⟨heq.symm, hr⟩
  · exact .inr (.inl hlt)

theorem isRanking_text : IsRanking fun s t : String => s < t where
  asymm hst hts := String.lt_irrefl _ (String.lt_trans hst hts)
  negTrans hts hut := String.not_lt.2 (String.le_trans (String.not_lt.1 hts) (String.not_lt.1 hut))

theorem text_lt_or_lt {s t : String} (h : s ≠ t) : s < t ∨ t < s := by
  by_contra hneither
  rw [not_or, String.not_lt, String.not_lt] at hneither
  exact h (String.le_antisymm hneither.2 hneither.1)

/-! ## Sorting -/

/-- A list in which no two items are level is sorted strictly. -/
theorem pairwise_mergeSort_of_isRanking {before : α → α → Bool} {l : List α}
    (h : IsRanking fun a b => before a b = true)
    (hl : l.Pairwise fun a b => before a b = true ∨ before b a = true) :
    (l.mergeSort fun a b => !before b a).Pairwise fun a b => before a b = true := by
  have hsorted : (l.mergeSort fun a b => !before b a).Pairwise fun a b => (!before b a) = true := by
    refine List.pairwise_mergeSort (fun a b c hab hbc => ?_) (fun a b => ?_) l
    · simp only [Bool.not_eq_true', ← Bool.not_eq_true] at hab hbc ⊢
      exact h.negTrans hab hbc
    · rw [← Bool.not_and, Bool.not_eq_true', Bool.and_eq_false_iff]
      rcases hba : before b a with _ | _
      · exact .inl rfl
      · exact .inr (Bool.eq_false_iff.2 (h.asymm hba))
  have hapart := (List.Perm.pairwise_iff Or.symm
    (List.mergeSort_perm l fun a b => !before b a)).2 hl
  refine hsorted.imp₂ (fun a b hab hor => hor.resolve_right ?_) hapart
  simpa using hab

theorem IsRanking.eq_of_mem_iff (h : IsRanking r) {l l' : List α} (hl : l.Pairwise r)
    (hl' : l'.Pairwise r) (hmem : ∀ a, a ∈ l ↔ a ∈ l') : l = l' := by
  have : Std.Irrefl r := ⟨h.irrefl⟩
  have : Std.Antisymm r := ⟨fun _ _ hab hba => absurd hba (h.asymm hab)⟩
  exact hl.eq_of_mem_iff hl' hmem

theorem IsRanking.nodup (h : IsRanking r) {l : List α} (hl : l.Pairwise r) : l.Nodup :=
  have : Std.Irrefl r := ⟨h.irrefl⟩
  hl.nodup

end Triage
