import Mathlib.Data.List.Dedup
import Triage.Proofs.Issue.Replay
import Triage.Proofs.Result
import Triage.Proofs.Service.Exits
import Triage.Proofs.Text.Lowercase

/-!
# Normal tags

What a list of entries is made into depends on the lower-case forms of the entries that are there
and not blank, and on nothing else: the first one with white space is refused, then too many of them
are, and else the set of them is the result.  A result is normal: made into tags again it stays as
it is.  A change of an issue keeps its tags or gives it normal ones.
-/

namespace Triage

/-- Whether the set is one that entries are made into if there may be `max` tags. -/
structure TextSet.IsNormal (s : TextSet) (max : Nat) : Prop where
  valid : s.AllValid
  lower : ∀ t ∈ s.toList, Text.lowercase t = t
  size : s.size ≤ max

namespace Tags

/-- The entries that count: those that are there and not blank. -/
def present (entries : List (Option String)) : List String :=
  (entries.filterMap id).filter fun t => !Text.allBlank t

/-- The set of the lower-case forms. -/
def forms (ts : List String) : TextSet := .ofList (ts.map Text.lowercase)

variable {entries entries' : List (Option String)} {ts ts' : List String} {t x : String} {max : Nat}
  {s : TextSet}

/-! ## Entries and their forms -/

theorem mem_present_iff : t ∈ present entries ↔ some t ∈ entries ∧ Text.allBlank t = false := by
  simp [present]

theorem mem_forms_iff : x ∈ (forms ts).toList ↔ ∃ t ∈ ts, Text.lowercase t = x := by
  simp [forms]

/-- There are as many tags as different forms. -/
theorem size_forms (ts : List String) :
    (forms ts).size = (ts.map Text.lowercase).dedup.length := by
  refine List.Perm.length_eq ((List.perm_ext_iff_of_nodup (forms ts).nodup_toList
    (List.nodup_dedup _)).2 fun x => ?_)
  rw [mem_forms_iff, List.mem_dedup, List.mem_map]

theorem forms_congr (h : ∀ t, t ∈ ts ↔ t ∈ ts') : forms ts = forms ts' :=
  TextSet.ext_mem fun x => by simp only [mem_forms_iff, h]

theorem ne_empty_of_allBlank (h : Text.allBlank t = false) : t ≠ "" := by
  rintro rfl
  cases Text.allBlank_empty.symm.trans h

/-- The form of an entry that counts can be stored unless it has white space. -/
theorem isValid_lowercase (h : Text.allBlank t = false) :
    isValid (Text.lowercase t) = !Text.hasBlank (Text.lowercase t) := by
  have hne := Text.lowercase_ne_empty (ne_empty_of_allBlank h)
  simp [isValid, hne]

theorem allBlank_of_isValid (h : isValid t = true) : Text.allBlank t = false := by
  simp only [isValid, Bool.and_eq_true, decide_eq_true_eq, Bool.not_eq_true'] at h
  obtain ⟨hne, hblank⟩ := h
  rw [Text.allBlank, List.all_eq_false]
  obtain ⟨c, hc⟩ := List.exists_mem_of_ne_nil t.toList (by simpa using hne)
  exact ⟨c, hc, List.any_eq_false.1 hblank c hc⟩

/-! ## What normalization comes to -/

theorem collect_eq (found : TextSet) (ts : List String) (hts : ∀ t ∈ ts, Text.allBlank t = false) :
    collect found ts =
      match ts.find? fun t => Text.hasBlank (Text.lowercase t) with
      | some t => .error (.invalidFormat t)
      | none => .ok ((ts.map Text.lowercase).foldl .insert found) := by
  induction ts generalizing found with
  | nil => rfl
  | cons t ts ih =>
    rw [collect, isValid_lowercase (hts t List.mem_cons_self), List.find?_cons]
    cases hblank : Text.hasBlank (Text.lowercase t) with
    | true => rfl
    | false => exact ih _ fun u hu => hts u (List.mem_cons_of_mem _ hu)

theorem normalize_eq (entries : List (Option String)) (max : Nat) :
    normalize entries max =
      match (present entries).find? fun t => Text.hasBlank (Text.lowercase t) with
      | some t => .error (.invalidFormat t)
      | none =>
        if max < (forms (present entries)).size then
          .error (.tooMany max (forms (present entries)).size)
        else .ok (forms (present entries)) := by
  rw [normalize, ← present, collect_eq ∅ (present entries) fun t ht => (mem_present_iff.1 ht).2]
  cases (present entries).find? fun t => Text.hasBlank (Text.lowercase t) <;> rfl

theorem normalize_eq_invalidFormat_iff : normalize entries max = .error (.invalidFormat t) ↔
    (present entries).find? (fun t => Text.hasBlank (Text.lowercase t)) = some t := by
  rw [normalize_eq]
  rcases (present entries).find? fun t => Text.hasBlank (Text.lowercase t) with _ | u
  · split_ifs <;> simp
  · simp

/-- Whether no form of an entry that counts has white space. -/
def Clear (entries : List (Option String)) : Prop :=
  ∀ t ∈ present entries, Text.hasBlank (Text.lowercase t) = false

theorem clear_iff : Clear entries ↔
    (present entries).find? (fun t => Text.hasBlank (Text.lowercase t)) = none := by
  simp [Clear, List.find?_eq_none]

theorem normalize_eq_tooMany_iff {m n : Nat} : normalize entries max = .error (.tooMany m n) ↔
    Clear entries ∧ m = max ∧ n = (forms (present entries)).size ∧ max < n := by
  rw [normalize_eq, clear_iff]
  rcases (present entries).find? fun t => Text.hasBlank (Text.lowercase t) with _ | u
  · by_cases h : max < (forms (present entries)).size
    · simp only [if_pos h, Except.error.injEq, TagError.tooMany.injEq, true_and]
      constructor
      · rintro ⟨rfl, rfl⟩
        exact ⟨rfl, rfl, h⟩
      · rintro ⟨rfl, rfl, -⟩
        exact ⟨rfl, rfl⟩
    · simp only [if_neg h, reduceCtorEq, false_iff, true_and, not_and]
      rintro - rfl
      exact h
  · simp

theorem normalize_eq_ok_iff : normalize entries max = .ok s ↔
    Clear entries ∧ (forms (present entries)).size ≤ max ∧ s = forms (present entries) := by
  rw [normalize_eq, clear_iff]
  rcases (present entries).find? fun t => Text.hasBlank (Text.lowercase t) with _ | u
  · by_cases h : max < (forms (present entries)).size
    · simp only [if_pos h, reduceCtorEq, false_iff, true_and, not_and]
      exact fun hle => absurd h (Nat.not_lt.2 hle)
    · simp [if_neg h, Nat.not_lt.1 h, eq_comm]
  · simp

theorem eq_forms_iff : s = forms ts ↔ ∀ x, x ∈ s.toList ↔ ∃ t ∈ ts, Text.lowercase t = x := by
  constructor
  · rintro rfl x
    exact mem_forms_iff
  · exact fun h => TextSet.ext_mem fun x => (h x).trans mem_forms_iff.symm

theorem clear_congr (h : ∀ t, t ∈ present entries ↔ t ∈ present entries') :
    Clear entries ↔ Clear entries' := by
  simp only [Clear, h]

/-- Which entries there are decides on the result and on whether there are too many, not their
order and number. -/
theorem normalize_congr (h : ∀ t, t ∈ present entries ↔ t ∈ present entries') (max : Nat) :
    (∀ s, normalize entries max = .ok s ↔ normalize entries' max = .ok s) ∧
      ∀ m n, normalize entries max = .error (.tooMany m n) ↔
        normalize entries' max = .error (.tooMany m n) := by
  simp only [normalize_eq_ok_iff, normalize_eq_tooMany_iff, clear_congr h, forms_congr h,
    implies_true, and_self]

/-! ## Normal sets -/

/-- What normalization ends in is normal. -/
theorem isNormal_of_normalize (h : normalize entries max = .ok s) : s.IsNormal max := by
  obtain ⟨hclear, hsize, rfl⟩ := normalize_eq_ok_iff.1 h
  refine ⟨fun x hx => ?_, fun x hx => ?_, hsize⟩
  · obtain ⟨t, ht, rfl⟩ := mem_forms_iff.1 hx
    rw [isValid_lowercase (mem_present_iff.1 ht).2, hclear t ht]
    rfl
  · obtain ⟨t, -, rfl⟩ := mem_forms_iff.1 hx
    exact Text.lowercase_lowercase t

theorem isValid_iff : isValid t = true ↔ t ≠ "" ∧ Text.hasBlank t = false := by
  simp [isValid]

theorem isNormal_empty (max : Nat) : TextSet.IsNormal ∅ max := ⟨nofun, nofun, Nat.zero_le _⟩

end Tags

namespace TextSet.IsNormal

variable {s : TextSet} {max : Nat}

theorem mono (h : s.IsNormal max) {max' : Nat} (hs : s.size ≤ max') : s.IsNormal max' :=
  ⟨h.valid, h.lower, hs⟩

/-- A normal set is what its members are made into. -/
theorem normalize_eq (h : s.IsNormal max) :
    Tags.normalize (s.toList.map some) max = .ok s := by
  have hpresent : Tags.present (s.toList.map some) = s.toList := by
    rw [Tags.present, List.filterMap_map]
    simpa using fun t ht => Tags.allBlank_of_isValid (h.valid t ht)
  have hforms : Tags.forms s.toList = s := by
    rw [Tags.forms, List.map_congr_left h.lower, List.map_id'', ofList_toList]
    exact fun _ => rfl
  rw [Tags.normalize_eq_ok_iff, hpresent, hforms]
  refine ⟨fun t ht => ?_, h.size, rfl⟩
  rw [hpresent] at ht
  have hvalid := h.valid t ht
  rw [h.lower t ht]
  simpa [Tags.isValid] using (Bool.and_eq_true_iff.1 hvalid).2

end TextSet.IsNormal

namespace Service

/-! ## Tags of changed rows -/

theorem Mutation.normalize_of_changed {limits : ServiceLimits} {entries : List (Option String)}
    {old new : Issue} (h : (setTags entries).changed limits old = .ok new) :
    Tags.normalize entries limits.maxTagsPerIssue = .ok new.tags := by
  simp only [changed] at h
  split at h <;> cases h
  assumption

theorem Mutation.tags_of_changed {limits : ServiceLimits} {m : Mutation} {old new : Issue}
    (h : m.changed limits old = .ok new) :
    new.tags = old.tags ∨ new.tags.IsNormal limits.maxTagsPerIssue := by
  cases m with
  | setTags entries => exact .inr (Tags.isNormal_of_normalize (normalize_of_changed h))
  | transition t =>
    simp only [changed, applyTransition] at h
    split at h <;> cases h
    exact .inl rfl
  | assign | plan | setSeverity =>
    cases h
    exact .inl rfl

end Service

end Triage
