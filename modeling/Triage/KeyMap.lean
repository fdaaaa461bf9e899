import Triage.Id

/-!
# Maps from identifiers

Finite maps whose entries stand in strictly increasing order of their keys, so that two maps with
the same entries are equal and listing a map needs no sorting.
-/

namespace Triage

/-- A finite map from identifiers of kind `k`. -/
structure KeyMap (k : IdKind) (α : Type) where
  entries : List (Id k × α)
  sorted : entries.Pairwise (fun a b => a.1 < b.1)
deriving DecidableEq

namespace KeyMap

variable {k : IdKind} {α : Type}

/-! ## Sorted entry lists -/

/-- The entries with the one for `key` set to `value`. -/
def insertEntry (key : Id k) (value : α) : List (Id k × α) → List (Id k × α)
  | [] => [(key, value)]
  | e :: es =>
    if key < e.1 then (key, value) :: e :: es
    else if key = e.1 then (key, value) :: es
    else e :: insertEntry key value es

theorem fst_of_mem_insertEntry {key : Id k} {value : α} {es : List (Id k × α)} {e : Id k × α}
    (h : e ∈ insertEntry key value es) : e = (key, value) ∨ e ∈ es := by
  induction es with
  | nil => simpa [insertEntry] using h
  | cons e' es ih =>
    unfold insertEntry at h
    split at h
    · simpa using h
    · split at h
      · rcases List.mem_cons.1 h with h | h
        · exact .inl h
        · exact .inr (List.mem_cons_of_mem _ h)
      · rcases List.mem_cons.1 h with h | h
        · exact .inr (h ▸ List.mem_cons_self)
        · exact (ih h).imp_right (List.mem_cons_of_mem _)

theorem sorted_insertEntry {key : Id k} {value : α} {es : List (Id k × α)}
    (h : es.Pairwise (fun a b => a.1 < b.1)) :
    (insertEntry key value es).Pairwise (fun a b => a.1 < b.1) := by
  induction es with
  | nil => simp [insertEntry]
  | cons e es ih =>
    have hs := List.pairwise_cons.1 h
    unfold insertEntry
    split
    case isTrue lt =>
      exact List.pairwise_cons.2 ⟨fun x hx => (List.mem_cons.1 hx).elim (fun e => e ▸ lt)
        (fun hx => Id.lt_trans lt (hs.1 x hx)), h⟩
    case isFalse nlt =>
      split
      case isTrue eq => exact List.pairwise_cons.2 ⟨fun x hx => eq ▸ hs.1 x hx, hs.2⟩
      case isFalse ne =>
        refine List.pairwise_cons.2 ⟨fun x hx => ?_, ih hs.2⟩
        rcases fst_of_mem_insertEntry hx with rfl | hx
        · exact Id.lt_of_not_lt_of_ne nlt ne
        · exact hs.1 x hx

/-! ## Operations -/

/-- The map without entries. -/
def empty : KeyMap k α := ⟨[], .nil⟩

/-- The value at `key`, if there is one. -/
def get? (m : KeyMap k α) (key : Id k) : Option α :=
  (m.entries.find? fun e => e.1 = key).map (·.2)

/-- Whether the map has an entry for `key`. -/
def contains (m : KeyMap k α) (key : Id k) : Bool := (m.get? key).isSome

/-- The map with `value` at `key` and all else as before. -/
def insert (m : KeyMap k α) (key : Id k) (value : α) : KeyMap k α :=
  ⟨insertEntry key value m.entries, sorted_insertEntry m.sorted⟩

/-- The map without an entry for `key`. -/
def erase (m : KeyMap k α) (key : Id k) : KeyMap k α :=
  ⟨m.entries.filter fun e => e.1 ≠ key, m.sorted.filter _⟩

/-- The keys, in increasing order. -/
def keys (m : KeyMap k α) : List (Id k) := m.entries.map (·.1)

/-- The values, in the order of their keys. -/
def values (m : KeyMap k α) : List α := m.entries.map (·.2)

/-- The number of entries. -/
def size (m : KeyMap k α) : Nat := m.entries.length

instance : EmptyCollection (KeyMap k α) := ⟨empty⟩

instance : Inhabited (KeyMap k α) := ⟨empty⟩

theorem ext_entries {m n : KeyMap k α} (h : m.entries = n.entries) : m = n := by
  cases m; cases n; simp_all

theorem sorted_keys (m : KeyMap k α) : m.keys.Pairwise (· < ·) :=
  List.pairwise_map.2 m.sorted

end KeyMap

end Triage
