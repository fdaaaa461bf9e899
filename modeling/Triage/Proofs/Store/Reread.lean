import Triage.Proofs.Store.Steps

/-!
# Reading what was written

The reading calls of a store answer what its deeds tell: under each key the row that was written
last, and the entries that were filed, in their order.  A store in memory answers the rows as they
are.  From a database a row is read back as its text, in which only an effort can come to stand for
another: a number that is not finite for none, and a finite one for the number that its digits are
read as.
-/

namespace Triage

/-- The row as its text is read. -/
def Issue.reread (i : Issue) : Issue :=
  { i with effortToFix := ((ofJsonText? (jsonText i.effortToFix) : Option (Option Binary64)).join) }

namespace Issue

variable {i : Issue} {x : Binary64}

theorem readsAs_reread (i : Issue) : ReadsAs i i.reread := by
  obtain ⟨effort, heffort⟩ := exists_readsAs_effort i.effortToFix
  have hreread : i.reread = { i with effortToFix := effort } := by
    rw [reread, heffort.ofJsonText?]
    rfl
  rw [hreread]
  exact readsAs_issue heffort

@[simp]
theorem key_reread (i : Issue) : i.reread.key = i.key := rfl

@[simp]
theorem createdAt_reread (i : Issue) : i.reread.createdAt = i.createdAt := rfl

@[simp]
theorem updatedAt_reread (i : Issue) : i.reread.updatedAt = i.updatedAt := rfl

/-- An effort that is not finite is read as none. -/
theorem effortToFix_reread_of_not_finite (hi : i.effortToFix = some x) (hx : x.isFinite = false) :
    i.reread.effortToFix = none := by
  rw [reread, hi, (readsAs_none_of_not_finite hx).ofJsonText?]
  rfl

/-- A finite effort is read as the number that its digits are read as. -/
theorem effortToFix_reread_of_finite (hi : i.effortToFix = some x) (hx : x.isFinite = true) :
    i.reread.effortToFix = ofJsonText? (jsonText x) := by
  obtain ⟨y, hy, hpresent⟩ := exists_readsAs_of_finite hx
  rw [reread, hi, (hy.some hpresent).ofJsonText?, hy.ofJsonText?]
  rfl

/-- A row is read as itself just if it has no effort or one that is finite and read as it is
written. -/
theorem reread_eq_self_iff : i.reread = i ↔ ∀ x ∈ i.effortToFix, x.Exact := by
  constructor
  · intro h x hi
    have heffort : i.reread.effortToFix = some x := (congrArg (·.effortToFix) h).trans hi
    rcases hx : x.isFinite with _ | _
    · rw [effortToFix_reread_of_not_finite hi hx] at heffort
      cases heffort
    · exact ⟨hx, (effortToFix_reread_of_finite hi hx).symm.trans heffort⟩
  · intro h
    suffices heffort : i.reread.effortToFix = i.effortToFix from
      congrArg (fun effort => { i with effortToFix := effort }) heffort
    rcases hi : i.effortToFix with _ | x
    · rw [reread, hi, readsAs_none.ofJsonText?]
      rfl
    · rw [effortToFix_reread_of_finite hi (h x hi).isFinite, (h x hi).read]

end Issue

/-! ## Rows -/

/-- A row that holds an issue passes its checks as the issue reread. -/
theorem IssueRow.passes_reread {r : IssueRow} {i : Issue} (h : ofIssue i = .ok r) :
    r.Passes i.key i.reread := by
  obtain ⟨rfl, hsize⟩ := of_ofIssue_eq_ok h
  refine passes_iff.2 ⟨_, bytes?_of i, ?_⟩
  exact decode_of_eq_of_read (Payload.decode_eq hsize i.readsAs_reread.ofJsonText?) rfl rfl rfl

/-! ## Calls that read -/

theorem forall₂_filterMap {α β : Type} {R : α → β → Prop} {f : α → Option β} {xs : List α}
    (h : ∀ x ∈ xs, ∃ y ∈ f x, R x y) : List.Forall₂ R xs (xs.filterMap f) := by
  induction xs with
  | nil => exact .nil
  | cons x xs ih =>
    obtain ⟨y, hy, hxy⟩ := h x List.mem_cons_self
    rw [List.filterMap_cons_some hy]
    exact .cons hxy (ih fun z hz => h z (List.mem_cons_of_mem _ hz))

namespace Store

/-- Whether the store has a place for rows and one for changelogs. -/
def HasTables : Store → Prop
  | .memory _ => True
  | .database db => db.HasIssues ∧ db.HasChanges

theorem HasTables.perform {s : Store} (h : s.HasTables) (now : Timestamp) (c : StoreCall) :
    (s.perform now c).2.HasTables := by
  cases s with
  | memory m => trivial
  | database db =>
    exact ⟨Database.survives_hasIssues.run h.1 now c, Database.survives_hasChanges.run h.2 now c⟩

theorem HasTables.after {s : Store} (h : s.HasTables) (calls : List (Timestamp × StoreCall)) :
    (s.after calls).HasTables := by
  induction calls generalizing s with
  | nil => exact h
  | cons call calls ih => exact ih (h.perform call.1 call.2)

theorem Fresh.hasTables {s : Store} (h : s.Fresh) : s.HasTables := by
  cases h with
  | memory => trivial
  | @database f f' settings db hopen =>
    obtain ⟨isPrivate, hdb⟩ := Database.reopened_of_openAt hopen
    have hissues := (Database.mirrors_of_reopened hdb).issues
    exact ⟨Option.isSome_iff_exists.2 ⟨_, hissues⟩, (Fresh.database hopen).hasChanges⟩

/-- The row as a call of the store reads it. -/
def reread : Store → Issue → Issue
  | .memory _, i => i
  | .database _, i => i.reread

@[simp]
theorem key_reread (s : Store) (i : Issue) : (s.reread i).key = i.key := by cases s <;> rfl

@[simp]
theorem createdAt_reread (s : Store) (i : Issue) : (s.reread i).createdAt = i.createdAt := by
  cases s <;> rfl

@[simp]
theorem updatedAt_reread (s : Store) (i : Issue) : (s.reread i).updatedAt = i.updatedAt := by
  cases s <;> rfl

theorem reread_perform (s : Store) (now : Timestamp) (c : StoreCall) (i : Issue) :
    (s.perform now c).2.reread i = s.reread i := by
  cases s <;> rfl

/-- A row that the store holds is read there, reread. -/
theorem Holds.perform_selectByKey {s : Store} {row : Issue} (h : s.Holds row) (now : Timestamp) :
    (s.perform now (.selectByKey row.key)).1 = .ok (some (s.reread row)) := by
  obtain ⟨c, hc, hrow⟩ := h
  cases s with
  | memory m =>
    obtain ⟨i, hi, rfl⟩ := Option.map_eq_some_iff.1 hc
    obtain rfl : i = row := hrow
    exact congrArg Except.ok hi
  | database db =>
    obtain ⟨r, hr, rfl⟩ := Option.map_eq_some_iff.1 hc
    obtain ⟨t, ht, hr⟩ := Database.exists_table_of_get? hr
    exact mapError_eq_ok.2 (Database.load_eq_ok_some.2 ⟨t, r, ht, hr, IssueRow.passes_reread hrow⟩)

/-- What the reading calls answer at `now` if `ds` are the deeds so far. -/
structure Answers (s : Store) (ds : List Deed) (now : Timestamp) : Prop where
  selectByKey : ∀ key,
    (s.perform now (.selectByKey key)).1 = .ok ((written key ds).getLast?.map s.reread)
  selectAll : (s.perform now .selectAll).1 =
    .ok (s.keys.filterMap fun key => (written key ds).getLast?.map s.reread)
  selectChanges : ∀ key, (s.perform now (.selectChanges key)).1 = .ok (filed key ds)

variable {s : Store} {ds : List Deed} {now : Timestamp} {key : IssueKey} {i : Issue}

theorem key_of_mem_written (h : i ∈ written key ds) : i.key = key :=
  of_decide_eq_true (List.mem_filter.1 h).2

theorem key_of_last_written (h : (written key ds).getLast? = some i) : i.key = key :=
  key_of_mem_written (List.mem_of_getLast? h)

theorem AccountedBy.written_eq_none (h : s.AccountedBy ds) (hnone : s.cell? key = none) :
    (written key ds).getLast? = none := by
  have hcell := h.cell key
  rw [hnone] at hcell
  generalize (written key ds).getLast? = last at hcell
  cases hcell
  rfl

/-- A row in memory is the one that was written last. -/
theorem AccountedBy.get?_memory {m : MemoryStore} (h : (memory m).AccountedBy ds) (key : IssueKey) :
    m.issues.get? key = (written key ds).getLast? := by
  have hcell := h.cell key
  generalize (written key ds).getLast? = last at hcell
  rw [cell?] at hcell
  rcases hget : m.issues.get? key with _ | i <;> rw [hget] at hcell <;> cases hcell
  case none.none => rfl
  case some.some j hij => exact congrArg some hij

/-- A row of a table passes its checks as the one that was written last, reread. -/
theorem AccountedBy.passes {db : Database} (h : (database db).AccountedBy ds) {key : IssueKey}
    {r : IssueRow} (hr : db.rows.get? key = some r) :
    ∃ i, (written key ds).getLast? = some i ∧ r.Passes key i.reread := by
  have hcell := h.cell key
  rw [cell?, hr] at hcell
  generalize hlast : (written key ds).getLast? = last at hcell
  cases hcell with
  | some hi =>
    refine ⟨_, rfl, ?_⟩
    have hpass := IssueRow.passes_reread hi
    rwa [key_of_last_written hlast] at hpass

theorem AccountedBy.answers_memory {m : MemoryStore} (h : (memory m).AccountedBy ds)
    (now : Timestamp) : (memory m).Answers ds now where
  selectByKey key := by
    refine congrArg Except.ok ((h.get?_memory key).trans ?_)
    exact Option.map_id'.symm
  selectAll := by
    refine congrArg Except.ok ?_
    have hvalues : List.Forall₂ (fun e i => e.2 = i) m.issues.entries
        (m.issues.entries.filterMap fun e => (written e.1 ds).getLast?.map (memory m).reread) := by
      refine forall₂_filterMap fun e he => ⟨e.2, ?_, rfl⟩
      rw [← h.get?_memory, KeyMap.mem_entries_iff.1 he]
      rfl
    rw [← List.forall₂_map_left_iff, List.forall₂_eq_eq_eq] at hvalues
    have hkeys : (memory m).keys = m.issues.entries.map (·.1) := rfl
    rw [hkeys, List.filterMap_map]
    exact hvalues
  selectChanges key := selectChanges_of_holds (s := memory m) trivial (h.entries key)

theorem AccountedBy.answers_database {db : Database} (h : (database db).AccountedBy ds)
    (hissues : db.HasIssues) (hchanges : db.HasChanges) (now : Timestamp) :
    (database db).Answers ds now := by
  obtain ⟨t, ht⟩ := Option.isSome_iff_exists.1 hissues
  have hrows := Database.rows_of_issues ht
  have hpass : ∀ key r, t.get? key = some r →
      ∃ i, (written key ds).getLast? = some i ∧ r.Passes key i.reread := by
    intro key r hr
    exact h.passes (hrows ▸ hr)
  refine ⟨fun key => ?_, ?_,
    fun key => selectChanges_of_holds (s := database db) hchanges (h.entries key)⟩
  · rcases hr : t.get? key with _ | r
    · have hnone : (database db).cell? key = none := by rw [cell?, hrows, hr, Option.map_none]
      rw [h.written_eq_none hnone]
      exact mapError_eq_ok.2 (Database.load_eq_ok_none.2 ⟨t, ht, hr⟩)
    · obtain ⟨i, hi, hread⟩ := hpass key r hr
      rw [hi]
      exact mapError_eq_ok.2 (Database.load_eq_ok_some.2 ⟨t, r, ht, hr, hread⟩)
  · refine mapError_eq_ok.2 (Database.loadAll_eq_ok.2 ⟨t, ht, ?_⟩)
    have hkeys : (database db).keys = t.entries.map (·.1) := congrArg KeyMap.keys hrows
    rw [hkeys, List.filterMap_map]
    refine forall₂_filterMap fun e he => ?_
    obtain ⟨i, hi, hread⟩ := hpass e.1 e.2 (KeyMap.mem_entries_iff.1 he)
    exact ⟨i.reread, Option.map_eq_some_iff.2 ⟨i, hi, rfl⟩, hread⟩

theorem AccountedBy.answers (h : s.AccountedBy ds) (hs : s.HasTables) (now : Timestamp) :
    s.Answers ds now := by
  cases s with
  | memory m => exact h.answers_memory now
  | database db => exact h.answers_database hs.1 hs.2 now

end Store

end Triage
