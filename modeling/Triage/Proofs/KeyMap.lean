import Triage.KeyMap

/-!
# Look-up in maps

A map is known by what it answers at each key: `get?` after each operation, the keys as those that
have a value, and equality of maps with the same answers.
-/

namespace Triage

namespace KeyMap

variable {k : IdKind} {α : Type}

/-! ## Sorted entry lists -/

/-- The value that a list of entries has at a key. -/
def lookup (key : Id k) (es : List (Id k × α)) : Option α :=
  (es.find? fun e => e.1 = key).map (·.2)

@[simp]
theorem lookup_nil (key : Id k) : lookup key ([] : List (Id k × α)) = none := rfl

theorem lookup_cons (key : Id k) (e : Id k × α) (es : List (Id k × α)) :
    lookup key (e :: es) = if e.1 = key then some e.2 else lookup key es := by
  unfold lookup
  rw [List.find?_cons]
  by_cases h : e.1 = key <;> simp [h]

theorem lookup_insertEntry (key key' : Id k) (value : α) (es : List (Id k × α)) :
    lookup key' (insertEntry key value es) = if key = key' then some value else lookup key' es := by
  induction es with
  | nil => simp [insertEntry, lookup_cons]
  | cons e es ih =>
    unfold insertEntry
    split
    case isTrue => rw [lookup_cons]
    case isFalse =>
      split
      case isTrue eq =>
        rw [lookup_cons, lookup_cons]
        by_cases h : key = key' <;> simp [h, ← eq]
      case isFalse ne =>
        rw [lookup_cons, lookup_cons, ih]
        by_cases h : key = key'
        · subst h
          simp [Ne.symm ne]
        · simp [h]

theorem lookup_filter_ne (key key' : Id k) (es : List (Id k × α)) :
    lookup key' (es.filter fun e => e.1 ≠ key) = if key = key' then none else lookup key' es := by
  induction es with
  | nil => simp
  | cons e es ih =>
    by_cases he : e.1 = key
    · rw [List.filter_cons_of_neg (by simp [he]), ih, lookup_cons]
      by_cases h : key = key' <;> simp [h, he]
    · rw [List.filter_cons_of_pos (by simp [he]), lookup_cons, lookup_cons, ih]
      by_cases h : key = key'
      · subst h
        simp [he]
      · simp [h]

/-- In a sorted list every entry is found at its own key. -/
theorem lookup_of_mem {es : List (Id k × α)} (hs : es.Pairwise fun a b => a.1 < b.1)
    {e : Id k × α} (he : e ∈ es) : lookup e.1 es = some e.2 := by
  induction es with
  | nil => cases he
  | cons e' es ih =>
    have hs' := List.pairwise_cons.1 hs
    rw [lookup_cons]
    rcases List.mem_cons.1 he with rfl | he
    · simp
    · rw [if_neg (Id.ne_of_lt (hs'.1 e he)), ih hs'.2 he]

theorem mem_of_lookup {es : List (Id k × α)} {key : Id k} {a : α}
    (h : lookup key es = some a) : (key, a) ∈ es := by
  unfold lookup at h
  obtain ⟨e, he, rfl⟩ := Option.map_eq_some_iff.1 h
  have hk : e.1 = key := by simpa using List.find?_some he
  exact hk ▸ List.mem_of_find?_eq_some he

/-! ## The value at a key -/

@[simp]
theorem get?_empty (key : Id k) : (∅ : KeyMap k α).get? key = none := rfl

theorem get?_insert (m : KeyMap k α) (key key' : Id k) (value : α) :
    (m.insert key value).get? key' = if key = key' then some value else m.get? key' :=
  lookup_insertEntry key key' value m.entries

@[simp]
theorem get?_insert_self (m : KeyMap k α) (key : Id k) (value : α) :
    (m.insert key value).get? key = some value := by
  rw [get?_insert, if_pos rfl]

theorem get?_insert_of_ne (m : KeyMap k α) {key key' : Id k} (h : key ≠ key') (value : α) :
    (m.insert key value).get? key' = m.get? key' := by
  rw [get?_insert, if_neg h]

theorem get?_erase (m : KeyMap k α) (key key' : Id k) :
    (m.erase key).get? key' = if key = key' then none else m.get? key' :=
  lookup_filter_ne key key' m.entries

theorem mem_entries_iff {m : KeyMap k α} {key : Id k} {a : α} :
    (key, a) ∈ m.entries ↔ m.get? key = some a :=
  ⟨fun h => lookup_of_mem m.sorted h, mem_of_lookup⟩

theorem mem_keys_iff {m : KeyMap k α} {key : Id k} : key ∈ m.keys ↔ (m.get? key).isSome := by
  unfold keys
  rw [List.mem_map, Option.isSome_iff_exists]
  constructor
  · rintro ⟨e, he, rfl⟩
    exact ⟨e.2, mem_entries_iff.1 he⟩
  · rintro ⟨a, ha⟩
    exact ⟨_, mem_entries_iff.2 ha, rfl⟩

theorem nodup_keys (m : KeyMap k α) : m.keys.Nodup :=
  m.sorted_keys.imp Id.ne_of_lt

/-! ## Values -/

theorem perm_insertEntry {key : Id k} {a : α} {es : List (Id k × α)}
    (h : es.Pairwise fun a b => a.1 < b.1) :
    (insertEntry key a es).Perm ((key, a) :: es.filter fun e => e.1 ≠ key) := by
  induction es with
  | nil => exact .refl _
  | cons e es ih =>
    have hs := List.pairwise_cons.1 h
    have keeps {fs : List (Id k × α)} (hfs : ∀ f ∈ fs, key < f.1) :
        (fs.filter fun f => f.1 ≠ key) = fs :=
      List.filter_eq_self.2 fun f hf => by simpa using (Id.ne_of_lt (hfs f hf)).symm
    unfold insertEntry
    split
    case isTrue lt =>
      have hlt : ∀ f ∈ e :: es, key < f.1 := fun f hf =>
        (List.mem_cons.1 hf).elim (fun heq => heq ▸ lt) fun hf => Id.lt_trans lt (hs.1 f hf)
      rw [keeps hlt]
    case isFalse =>
      split
      case isTrue eq =>
        rw [List.filter_cons_of_neg (by simp [eq]), keeps fun f hf => eq ▸ hs.1 f hf]
      case isFalse ne =>
        rw [List.filter_cons_of_pos (by simpa using Ne.symm ne)]
        exact ((ih hs.2).cons e).trans (.swap _ _ _)

/-- The new value stands beside those under the other keys. -/
theorem perm_values_insert (m : KeyMap k α) (key : Id k) (a : α) :
    (m.insert key a).values.Perm (a :: (m.erase key).values) :=
  (perm_insertEntry m.sorted).map _

/-! ## Maps with the same answers -/

theorem eq_of_lookup_eq {es fs : List (Id k × α)} (he : es.Pairwise fun a b => a.1 < b.1)
    (hf : fs.Pairwise fun a b => a.1 < b.1) (h : ∀ key, lookup key es = lookup key fs) :
    es = fs := by
  induction es generalizing fs with
  | nil =>
    cases fs with
    | nil => rfl
    | cons f fs => simpa [lookup_cons] using h f.1
  | cons e es ih =>
    cases fs with
    | nil => simpa [lookup_cons] using h e.1
    | cons f fs =>
      have he' := List.pairwise_cons.1 he
      have hf' := List.pairwise_cons.1 hf
      -- the heads agree: each is found in the other list, and neither can stand behind the other
      have hfe : e ∈ f :: fs :=
        mem_of_lookup ((h e.1).symm.trans (lookup_of_mem he List.mem_cons_self))
      have hef : f ∈ e :: es :=
        mem_of_lookup ((h f.1).trans (lookup_of_mem hf List.mem_cons_self))
      have heq : e = f := by
        rcases List.mem_cons.1 hfe with heq | hfe
        · exact heq
        · rcases List.mem_cons.1 hef with heq | hef
          · exact heq.symm
          · exact absurd (Id.lt_trans (hf'.1 e hfe) (he'.1 f hef)) (Id.lt_irrefl _)
      subst heq
      refine congrArg (e :: ·) (ih he'.2 hf'.2 fun key => ?_)
      have hk := h key
      rw [lookup_cons, lookup_cons] at hk
      by_cases hek : e.1 = key
      · subst hek
        have none_of {gs : List (Id k × α)} (hg : ∀ g ∈ gs, e.1 < g.1) :
            lookup e.1 gs = none := by
          rw [lookup, List.find?_eq_none.2 fun g hm => by simpa using (Id.ne_of_lt (hg g hm)).symm]
          rfl
        rw [none_of he'.1, none_of hf'.1]
      · simpa [hek] using hk

theorem ext_get? {m n : KeyMap k α} (h : ∀ key, m.get? key = n.get? key) : m = n :=
  ext_entries (eq_of_lookup_eq m.sorted n.sorted h)

theorem insert_eq_self {m : KeyMap k α} {key : Id k} {a : α} (h : m.get? key = some a) :
    m.insert key a = m := by
  refine ext_get? fun key' => ?_
  rw [get?_insert]
  split
  case isTrue eq => rw [← eq, h]
  case isFalse => rfl

/-- A value stands beside those under the other keys. -/
theorem perm_values_of_get? {m : KeyMap k α} {key : Id k} {a : α} (h : m.get? key = some a) :
    m.values.Perm (a :: (m.erase key).values) := by
  have hperm := m.perm_values_insert key a
  rwa [insert_eq_self h] at hperm

theorem erase_eq_self {m : KeyMap k α} {key : Id k} (h : m.get? key = none) : m.erase key = m := by
  refine ext_get? fun key' => ?_
  rw [get?_erase]
  split
  case isTrue eq => rw [← eq, h]
  case isFalse => rfl

/-! ## Maps of other values -/

/-- The map with every value changed by `f`. -/
def map {β : Type} (f : α → β) (m : KeyMap k α) : KeyMap k β :=
  ⟨m.entries.map fun e => (e.1, f e.2), List.pairwise_map.2 m.sorted⟩

@[simp]
theorem get?_map {β : Type} (f : α → β) (m : KeyMap k α) (key : Id k) :
    (m.map f).get? key = (m.get? key).map f := by
  simp [get?, map, List.find?_map, Function.comp_def]

theorem map_insert {β : Type} (f : α → β) (m : KeyMap k α) (key : Id k) (a : α) :
    (m.insert key a).map f = (m.map f).insert key (f a) := by
  refine ext_get? fun key' => ?_
  rw [get?_map, get?_insert, get?_insert, get?_map]
  split <;> rfl

end KeyMap

end Triage
