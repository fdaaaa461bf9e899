import Triage.TextSet

/-!
# Sets and their lists

A set is the set of its members.
-/

namespace Triage

namespace TextSet

theorem insertText_of_forall_lt {t : String} {us : List String} (h : ∀ u ∈ us, u < t) :
    insertText t us = us ++ [t] := by
  induction us with
  | nil => rfl
  | cons u us ih =>
    have hu := h u List.mem_cons_self
    have hnot : ¬t < u := fun htu => String.lt_irrefl _ (String.lt_trans hu htu)
    have hne : t ≠ u := by
      rintro rfl
      exact hnot hu
    rw [insertText, if_neg hnot, if_neg hne, ih fun v hv => h v (List.mem_cons_of_mem _ hv)]
    rfl

theorem toList_foldl_insert {ts : List String} {s : TextSet}
    (h : (s.toList ++ ts).Pairwise (· < ·)) : (ts.foldl insert s).toList = s.toList ++ ts := by
  induction ts generalizing s with
  | nil => simp
  | cons t ts ih =>
    have hlast : ∀ u ∈ s.toList, u < t := fun u hu =>
      (List.pairwise_append.1 h).2.2 u hu t List.mem_cons_self
    have hinsert : (s.insert t).toList = s.toList ++ [t] := insertText_of_forall_lt hlast
    rw [List.foldl_cons, ih (by simpa [hinsert] using h), hinsert, List.append_assoc]
    rfl

theorem ofList_toList (s : TextSet) : ofList s.toList = s :=
  ext_toList (toList_foldl_insert (s := empty) s.sorted)

theorem nodup_toList (s : TextSet) : s.toList.Nodup :=
  s.sorted.imp fun {a b} (h : a < b) (heq : a = b) => String.lt_irrefl b (heq ▸ h)

theorem ext_mem {s t : TextSet} (h : ∀ x, x ∈ s.toList ↔ x ∈ t.toList) : s = t := by
  have hperm : s.toList.Perm t.toList :=
    (List.perm_ext_iff_of_nodup s.nodup_toList t.nodup_toList).2 h
  refine ext_toList (hperm.eq_of_pairwise (fun a b _ _ hab hba => ?_) s.sorted t.sorted)
  exact absurd (String.lt_trans hab hba) (String.lt_irrefl a)

theorem mem_toList_foldl_insert {s : TextSet} {ts : List String} {x : String} :
    x ∈ (ts.foldl insert s).toList ↔ x ∈ s.toList ∨ x ∈ ts := by
  induction ts generalizing s with
  | nil => simp
  | cons t ts ih =>
    rw [List.foldl_cons, ih, mem_toList_insert, List.mem_cons, or_assoc, or_left_comm]

@[simp]
theorem mem_toList_ofList {ts : List String} {x : String} : x ∈ (ofList ts).toList ↔ x ∈ ts := by
  simp [ofList, mem_toList_foldl_insert, empty]

end TextSet

end Triage
