import Triage.Proofs.Store.Checks
import Triage.Store.Basic

/-!
# The content of a store

What lies under a key, in one form for both kinds of store: the cell of the row and the entries of
the changelog.  A cell holds an issue if it is what that issue is stored as.  In memory this is the
issue itself; in a table it is a text, and a store keeps an issue if the text that the issue is
stored as is read as the issue again.
-/

namespace Triage

/-- What lies under a key: the row itself, or its form in a table. -/
inductive Cell
  | issue (i : Issue)
  | row (r : IssueRow)

/-- What lies in a changelog: the entry itself, or its form in a table. -/
inductive Entry
  | change (c : IssueChange)
  | row (r : ChangeRow)

namespace Cell

/-- The issue that the cell at `key` is read as. -/
def read (key : IssueKey) : Cell → Except StoreError Issue
  | .issue i => .ok i
  | .row r => (r.bytes?.bind (r.decode key)).mapError DatabaseError.toStoreError

/-- Whether the cell is what `i` is stored as. -/
def Holds : Cell → Issue → Prop
  | .issue j, i => j = i
  | .row r, i => IssueRow.ofIssue i = .ok r

/-- Whether the cell holds `i` or is read as it. -/
def Shows (c : Cell) (i : Issue) : Prop := c.Holds i ∨ c.read i.key = .ok i

end Cell

/-- Whether the entry is what `c` is stored as. -/
def Entry.Holds : Entry → IssueChange → Prop
  | .change d, c => d = c
  | .row r, c => r.issueKey = c.issueKey ∧ r.createdAt = c.createdAt ∧
      ∃ bytes, Payload.encode c = .ok bytes ∧ r.payload = .blob bytes

namespace Database

/-- The rows of the issue table; none if there is no table. -/
def rows (db : Database) : KeyMap .issue IssueRow := db.issues.getD ∅

/-- The rows of the changelog table that are filed under `key`, in the order of their numbers; none
if there is no table. -/
def filedUnder (db : Database) (key : IssueKey) : List ChangeRow :=
  (db.changes.map (·.filedUnder key)).getD []

theorem rows_of_issues {db : Database} {t : KeyMap .issue IssueRow} (h : db.issues = some t) :
    db.rows = t := by
  rw [rows, h, Option.getD_some]

theorem rows_of_issueTable {db : Database} {t : KeyMap .issue IssueRow}
    (h : db.issueTable = .ok t) : db.rows = t :=
  rows_of_issues (issueTable_eq_ok.1 h)

theorem exists_table_of_get? {db : Database} {key : IssueKey} {r : IssueRow}
    (h : db.rows.get? key = some r) : ∃ t, db.issues = some t ∧ t.get? key = some r := by
  rcases ht : db.issues with _ | t
  · simp [rows, ht] at h
  · exact ⟨t, rfl, rows_of_issues ht ▸ h⟩

end Database

namespace Store

/-- The cell under `key`, if there is one. -/
def cell? : Store → IssueKey → Option Cell
  | .memory m, key => (m.issues.get? key).map .issue
  | .database db, key => (db.rows.get? key).map .row

/-- The entries of the changelog of `key`, the oldest first. -/
def entries : Store → IssueKey → List Entry
  | .memory m, key => (m.changelog key).map .change
  | .database db, key => (db.filedUnder key).map .row

/-- The keys of the rows, in increasing order. -/
def keys : Store → List IssueKey
  | .memory m => m.issues.keys
  | .database db => db.rows.keys

/-- Whether there is a row under `key`. -/
def HasRow (s : Store) (key : IssueKey) : Prop := (s.cell? key).isSome

instance (s : Store) (key : IssueKey) : Decidable (s.HasRow key) :=
  inferInstanceAs (Decidable ((s.cell? key).isSome = true))

/-- Whether the cell under its key holds `i`. -/
def Holds (s : Store) (i : Issue) : Prop := ∃ c, s.cell? i.key = some c ∧ c.Holds i

/-- Whether the cell under its key shows `i`. -/
def Shows (s : Store) (i : Issue) : Prop := ∃ c, s.cell? i.key = some c ∧ c.Shows i

/-- Whether the cell under the key of `i` is read as `i` if it holds it. -/
def Keeps (s : Store) (i : Issue) : Prop :=
  ∀ c, s.cell? i.key = some c → c.Holds i → c.read i.key = .ok i

/-- Whether every row in memory stands under its own key. -/
def Keyed (s : Store) : Prop := ∀ key i, s.cell? key = some (.issue i) → i.key = key

variable {s s' : Store} {key : IssueKey} {now : Timestamp} {i : Issue}

theorem entries_of_changes {db : Database} {t : ChangeTable} (h : db.changes = some t)
    (key : IssueKey) : (Store.database db).entries key = (t.filedUnder key).map .row := by
  rw [entries, Database.filedUnder, h, Option.map_some, Option.getD_some]

/-! ## Rows and cells -/

theorem Holds.shows (h : s.Holds i) : s.Shows i := by
  obtain ⟨c, hc, hi⟩ := h
  exact ⟨c, hc, .inl hi⟩

theorem Shows.hasRow (h : s.Shows i) : s.HasRow i.key := by
  obtain ⟨c, hc, -⟩ := h
  rw [HasRow, hc]
  rfl

theorem shows_iff_of_cell?_eq (h : s'.cell? i.key = s.cell? i.key) : s'.Shows i ↔ s.Shows i := by
  rw [Shows, Shows, h]

theorem holds_iff_of_cell?_eq (h : s'.cell? i.key = s.cell? i.key) : s'.Holds i ↔ s.Holds i := by
  rw [Holds, Holds, h]

theorem hasRow_iff_of_cell?_eq (h : s'.cell? key = s.cell? key) : s'.HasRow key ↔ s.HasRow key := by
  rw [HasRow, HasRow, h]

theorem not_hasRow_iff : ¬s.HasRow key ↔ s.cell? key = none := by
  simp [HasRow]

theorem mem_keys_iff : key ∈ s.keys ↔ s.HasRow key := by
  cases s <;> simp [keys, HasRow, cell?, KeyMap.mem_keys_iff]

theorem nodup_keys (s : Store) : s.keys.Nodup := by
  cases s <;> exact KeyMap.nodup_keys _

theorem keeps_memory (m : MemoryStore) (i : Issue) : (Store.memory m).Keeps i := by
  intro c hc hi
  obtain ⟨j, -, rfl⟩ := Option.map_eq_some_iff.1 hc
  exact congrArg Except.ok hi

end Store

/-! ## Reading -/

namespace IssueRow

theorem stamps_of_ofIssue_eq_ok {r : IssueRow} {i : Issue} (h : ofIssue i = .ok r) :
    i.createdAt = r.createdAt ∧ i.updatedAt = r.updatedAt := by
  unfold ofIssue at h
  obtain ⟨bytes, -, h⟩ := bind_eq_ok.1 h
  rw [← pure_eq_ok.1 h]
  exact ⟨rfl, rfl⟩

/-- An issue that the cell of the row shows has its stamps. -/
theorem stamps_of_shows {r : IssueRow} {i : Issue} (h : (Cell.row r).Shows i) :
    i.createdAt = r.createdAt ∧ i.updatedAt = r.updatedAt := by
  rcases h with h | h
  · exact stamps_of_ofIssue_eq_ok h
  · obtain ⟨bytes, -, h⟩ := bind_eq_ok.1 (mapError_eq_ok.1 h)
    exact (decode_eq_ok.1 h).2.2

end IssueRow

namespace Store

variable {s : Store} {key : IssueKey} {now : Timestamp} {c : Cell} {i : Issue}

theorem key_of_read (hs : s.Keyed) (hc : s.cell? key = some c) (hr : c.read key = .ok i) :
    i.key = key := by
  cases c with
  | issue j =>
    cases hr
    exact hs key _ hc
  | row r =>
    obtain ⟨bytes, -, hi⟩ := bind_eq_ok.1 (mapError_eq_ok.1 hr)
    exact (IssueRow.decode_eq_ok.1 hi).2.1

theorem selectByKey_eq_ok {o : Option Issue}
    (h : (s.perform now (.selectByKey key)).1 = .ok o) :
    (o = none ∧ s.cell? key = none) ∨
      ∃ c i, o = some i ∧ s.cell? key = some c ∧ c.read key = .ok i := by
  cases s with
  | memory m =>
    obtain rfl : m.issues.get? key = o := Except.ok.inj h
    rcases hi : m.issues.get? key with _ | i
    · exact .inl ⟨rfl, by simp [cell?, hi]⟩
    · exact .inr ⟨.issue i, i, rfl, by simp [cell?, hi], rfl⟩
  | database db =>
    obtain ⟨table, ht, h⟩ := bind_eq_ok.1 (mapError_eq_ok.1 h : db.load key = .ok o)
    rw [← Database.rows_of_issueTable ht] at h
    split at h
    case h_1 hr =>
      exact .inl ⟨(pure_eq_ok.1 h).symm, by simp [cell?, hr]⟩
    case h_2 r hr =>
      obtain ⟨bytes, hb, h⟩ := bind_eq_ok.1 h
      obtain ⟨i, hi, h⟩ := bind_eq_ok.1 h
      refine .inr ⟨.row r, i, (pure_eq_ok.1 h).symm, by simp [cell?, hr], ?_⟩
      exact mapError_eq_ok.2 (bind_eq_ok.2 ⟨bytes, hb, hi⟩)

theorem exists_cell?_of_selectByKey (h : (s.perform now (.selectByKey key)).1 = .ok (some i)) :
    ∃ c, s.cell? key = some c ∧ c.read key = .ok i := by
  rcases selectByKey_eq_ok h with ⟨hnone, -⟩ | ⟨c, j, hj, hc, hread⟩
  · cases hnone
  · cases hj
    exact ⟨c, hc, hread⟩

theorem key_of_selectByKey (hs : s.Keyed)
    (h : (s.perform now (.selectByKey key)).1 = .ok (some i)) : i.key = key := by
  obtain ⟨c, hc, hread⟩ := exists_cell?_of_selectByKey h
  exact key_of_read hs hc hread

theorem selectByKey_of_cell? (hc : s.cell? key = some c) (hr : c.read key = .ok i) :
    (s.perform now (.selectByKey key)).1 = .ok (some i) := by
  cases s with
  | memory m =>
    obtain ⟨j, hj, rfl⟩ := Option.map_eq_some_iff.1 hc
    cases hr
    exact congrArg Except.ok hj
  | database db =>
    obtain ⟨r, hr', rfl⟩ := Option.map_eq_some_iff.1 hc
    obtain ⟨t, ht, hr'⟩ := Database.exists_table_of_get? hr'
    have hpass := IssueRow.passes_iff.2 (bind_eq_ok.1 (mapError_eq_ok.1 hr))
    exact mapError_eq_ok.2 (Database.load_eq_ok_some.2 ⟨t, r, ht, hr', hpass⟩)

/-- Where the rows can be listed, a missing one is found to be missing. -/
theorem selectByKey_of_not_hasRow {rows : List Issue}
    (h : (s.perform now .selectAll).1 = .ok rows) (hrow : ¬s.HasRow key) :
    (s.perform now (.selectByKey key)).1 = .ok none := by
  have hnone := not_hasRow_iff.1 hrow
  cases s with
  | memory m => exact congrArg Except.ok (Option.map_eq_none_iff.1 hnone)
  | database db =>
    obtain ⟨t, ht, -⟩ := Database.loadAll_eq_ok.1 (mapError_eq_ok.1 h)
    refine mapError_eq_ok.2 (Database.load_eq_ok_none.2 ⟨t, ht, ?_⟩)
    simpa [cell?, Database.rows_of_issues ht] using hnone

/-- Where the rows can be listed, each of them can be read. -/
theorem exists_selectByKey {rows : List Issue} (h : (s.perform now .selectAll).1 = .ok rows)
    (key : IssueKey) : ∃ row?, (s.perform now (.selectByKey key)).1 = .ok row? := by
  by_cases hrow : s.HasRow key
  · obtain ⟨c, hc⟩ := Option.isSome_iff_exists.1 hrow
    suffices hread : ∃ i, c.read key = .ok i by
      obtain ⟨i, hi⟩ := hread
      exact ⟨some i, selectByKey_of_cell? hc hi⟩
    cases s with
    | memory m =>
      obtain ⟨i, -, rfl⟩ := Option.map_eq_some_iff.1 hc
      exact ⟨i, rfl⟩
    | database db =>
      obtain ⟨t, ht, hpass⟩ := Database.exists_loadAll_iff.1 ⟨rows, mapError_eq_ok.1 h⟩
      obtain ⟨r, hr, rfl⟩ := Option.map_eq_some_iff.1 hc
      rw [Database.rows_of_issues ht] at hr
      obtain ⟨i, hi⟩ := hpass key r hr
      obtain ⟨bytes, hbytes, hi⟩ := IssueRow.passes_iff.1 hi
      exact ⟨i, mapError_eq_ok.2 (bind_eq_ok.2 ⟨bytes, hbytes, hi⟩)⟩
  · exact ⟨none, selectByKey_of_not_hasRow h hrow⟩

/-- A row that is shown is read back exactly if it is kept. -/
theorem Shows.selectByKey_iff (h : s.Shows i) :
    (s.perform now (.selectByKey i.key)).1 = .ok (some i) ↔ s.Keeps i := by
  constructor
  · intro hr c hc _
    rcases selectByKey_eq_ok hr with ⟨hnone, -⟩ | ⟨c', i', hi, hc', hread⟩
    · cases hnone
    · cases hi
      cases hc.symm.trans hc'
      exact hread
  · intro hk
    obtain ⟨c, hc, hi | hread⟩ := h
    · exact selectByKey_of_cell? hc (hk c hc hi)
    · exact selectByKey_of_cell? hc hread

theorem selectAll_eq_ok (hs : s.Keyed) {rows : List Issue}
    (h : (s.perform now .selectAll).1 = .ok rows) : rows.map (·.key) = s.keys := by
  cases s with
  | memory m =>
    obtain rfl : m.issues.values = rows := Except.ok.inj h
    unfold keys KeyMap.keys KeyMap.values
    rw [List.map_map]
    refine List.map_congr_left fun e he => hs e.1 e.2 ?_
    simp [cell?, KeyMap.mem_entries_iff.1 he]
  | database db =>
    obtain ⟨t, ht, hkeys⟩ := Database.keys_of_loadAll_eq_ok (mapError_eq_ok.1 h)
    rw [hkeys, ← Database.rows_of_issues ht]
    rfl

end Store

end Triage
