import Triage.Proofs.Store.Legible

/-!
# Steps of a store

One description covers every call of a store of either kind, whether it succeeds or not: the answer
tells which rows were written and which entry was filed, and all else is as before.  A new row has
the time of the call for its stamps, and a changed one keeps the first stamp and advances the
second.  What holds after any number of calls follows from this description alone.
-/

namespace Triage

namespace StoreCall

/-- Whether the call only reads. -/
def isReading : StoreCall → Bool
  | .selectByKey _ | .selectAll | .selectChanges _ => true
  | _ => false

/-- Whether the call brings new rows in. -/
def isInsertion : StoreCall → Bool
  | .insert _ => true
  | _ => false

/-- The rows that the call has written if it answers `a`. -/
def rows : (c : StoreCall) → c.Answer → List Issue
  | .insert _, rows => rows
  | .update _, row => [row]
  | .updateWithChange _ _ _, row => [row]
  | _, _ => []

/-- The entry of a change that the call has filed with its row if it answers `a`. -/
def committed? : (c : StoreCall) → c.Answer → Option IssueChange
  | .updateWithChange _ user diffs, row =>
    if diffs.isEmpty then none else some ⟨row.key, user, row.updatedAt, diffs⟩
  | _, _ => none

/-- The entry that the call has filed, with a row or by itself, if it answers `a`. -/
def filed? : (c : StoreCall) → c.Answer → Option IssueChange
  | .insertChange c, _ => some c
  | c, a => c.committed? a

end StoreCall

namespace Store

/-- A call as it is made: the store before it, the time, and the call. -/
structure Deed where
  store : Store
  now : Timestamp
  call : StoreCall

namespace Deed

/-- The answer to the call. -/
def answer (d : Deed) : Except StoreError d.call.Answer := (d.store.perform d.now d.call).1

/-- The store after the call. -/
def after (d : Deed) : Store := (d.store.perform d.now d.call).2

/-- The rows that were written. -/
def rows (d : Deed) : List Issue := (d.answer.toOption.map d.call.rows).getD []

/-- The entry that was filed with a row. -/
def committed? (d : Deed) : Option IssueChange := d.answer.toOption.bind d.call.committed?

/-- The entry that was filed. -/
def filed? (d : Deed) : Option IssueChange := d.answer.toOption.bind d.call.filed?

/-- How a row that was written has come to its stamps. -/
inductive Stamps (d : Deed) (row : Issue) : Prop
  | inserted (hcall : d.call.isInsertion = true) (hfresh : ¬d.store.HasRow row.key)
    (hcreated : row.createdAt = d.now) (hupdated : row.updatedAt = d.now)
  | updated (hcall : d.call.isInsertion = false) (hrow : d.store.HasRow row.key)
    (hstamps : ∀ c old, d.store.cell? row.key = some c → c.Shows old →
      row.createdAt = old.createdAt ∧ row.updatedAt = old.updatedAt.nextAfter d.now)

/-- What a call comes to. -/
structure Effect (d : Deed) : Prop where
  writes : d.store.Writes d.after d.rows
  stamps : ∀ row ∈ d.rows, d.Stamps row
  logs : d.store.Logs d.after d.filed?
  belongs : ∀ c ∈ d.filed?, d.after.HasRow c.issueKey

end Deed

variable {s s' : Store} {now : Timestamp}

/-- What a successful insertion of an entry does: it is filed under its issue, which has a row, and
no row changes. -/
structure Appends (s s' : Store) (c : IssueChange) : Prop where
  hasRow : s.HasRow c.issueKey
  writes : s.Writes s' []
  logs : s.Logs s' (some c)

theorem Writes.refl (s : Store) : s.Writes s [] where
  holds := by simp
  others _ _ := rfl

/-- To update a row is to update it with no differences. -/
theorem perform_update (s : Store) (now : Timestamp) (i : Issue) (user : Login) :
    s.perform now (.update i) = s.perform now (.updateWithChange i user []) := by
  cases s with
  | memory m =>
    have h : m.update now i = m.updateWithChange now i user [] := by
      unfold MemoryStore.updateWithChange
      rcases m.update now i with ⟨e | row, m'⟩ <;> rfl
    exact congrArg (Prod.map id Store.memory) h
  | database db =>
    have ht : Database.Transaction.updateIssue now i =
        Database.Transaction.updateIssueWithChange now i user [] := by
      simp [Database.Transaction.updateIssueWithChange]
    have h : db.run now (.update i) = db.run now (.updateWithChange i user []) :=
      congrArg db.commit ht
    exact congrArg (fun r : Except DatabaseError Issue × Database =>
      ((r.1.mapError DatabaseError.toStoreError, Store.database r.2) :
        Except StoreError Issue × Store)) h

end Store

/-! ## Entries by themselves -/

open Store (Appends)

theorem MemoryStore.appends_of_insertChange {m m' : MemoryStore} {c : IssueChange}
    (h : m.insertChange c = (.ok (), m')) : Appends (.memory m) (.memory m') c := by
  unfold MemoryStore.insertChange at h
  split_ifs at h with hrow
  · obtain ⟨-, rfl⟩ := Prod.mk.inj h
    refine ⟨?_, ⟨by simp, fun _ _ => rfl⟩, MemoryStore.logs_append m c⟩
    simpa [Store.HasRow, Store.cell?, KeyMap.contains] using hrow
  · cases (Prod.mk.inj h).1

theorem Database.appends_of_run {db db' : Database} {c : IssueChange} {u : Unit}
    (h : (Transaction.insertChange c).run db = .ok (u, db')) :
    Appends (.database db) (.database db') c := by
  unfold Transaction.insertChange at h
  simp at h
  obtain ⟨old, db₁, hold, h⟩ := h
  obtain ⟨rfl, rfl⟩ := Transaction.run_row?_eq_ok hold
  split_ifs at h with hrow
  · simp at h
  · obtain ⟨hrows, hlogs⟩ := Transaction.run_fileChange_eq_ok h
    refine ⟨?_, ⟨by simp, fun key _ => ?_⟩, hlogs⟩
    · simpa [Store.HasRow, Store.cell?, ← Option.isSome_iff_ne_none] using hrow
    · rw [Store.cell?, hrows, Store.cell?]

namespace Store

variable {s s' : Store} {now : Timestamp}

theorem appends_of_insertChange {c : IssueChange}
    (h : s.perform now (.insertChange c) = (.ok (), s')) : s.Appends s' c := by
  cases s with
  | memory m =>
    obtain ⟨hr, rfl⟩ := Prod.mk.inj h
    exact MemoryStore.appends_of_insertChange (Prod.ext hr rfl)
  | database db =>
    obtain ⟨hr, rfl⟩ := Prod.mk.inj h
    exact Database.appends_of_run (Database.commit_eq_ok (Prod.ext (mapError_eq_ok.1 hr) rfl))

/-! ## Every call -/

theorem perform_of_isReading {c : StoreCall} (hc : c.isReading = true) :
    (s.perform now c).2 = s := by
  cases c with
  | selectByKey | selectAll | selectChanges => cases s <;> rfl
  | insert | update | updateWithChange | insertChange => cases hc

namespace Deed

variable {d : Deed}

theorem rows_of_eq_ok {a : d.call.Answer} (h : d.answer = .ok a) : d.rows = d.call.rows a := by
  rw [rows, h]
  rfl

theorem rows_of_eq_error {e : StoreError} (h : d.answer = .error e) : d.rows = [] := by
  rw [rows, h]
  rfl

theorem committed?_of_eq_ok {a : d.call.Answer} (h : d.answer = .ok a) :
    d.committed? = d.call.committed? a := by
  rw [committed?, h]
  rfl

theorem filed?_of_eq_ok {a : d.call.Answer} (h : d.answer = .ok a) :
    d.filed? = d.call.filed? a := by
  rw [filed?, h]
  rfl

/-- A deed that writes nothing. -/
theorem Effect.idle (hafter : d.after = d.store) (hrows : d.rows = []) (hfiled : d.filed? = none) :
    d.Effect where
  writes := by rw [hafter, hrows]; exact .refl _
  stamps := by simp [hrows]
  logs := by rw [hafter, hfiled]; exact .refl _
  belongs := by simp [hfiled]

theorem filed?_of_eq_error {e : StoreError} (h : d.answer = .error e) : d.filed? = none := by
  rw [filed?, h]
  rfl

theorem Effect.of_error {e : StoreError} (h : d.answer = .error e) : d.Effect :=
  .idle (perform_of_error h) (rows_of_eq_error h) (filed?_of_eq_error h)

theorem Effect.of_inserts {is rows : List Issue} (h : d.store.Inserts d.after d.now is rows)
    (hcall : d.call.isInsertion = true) (hrows : d.rows = rows) (hfiled : d.filed? = none) :
    d.Effect where
  writes := by rw [hrows]; exact h.writes
  stamps := by
    intro row hrow
    rw [hrows, h.rows_eq] at hrow
    obtain ⟨i, hi, rfl⟩ := List.mem_map.1 hrow
    exact .inserted hcall (h.fresh i hi) rfl rfl
  logs := by rw [hfiled]; exact h.logs
  belongs := by simp [hfiled]

theorem Effect.of_updates {i row : Issue} {user : Login} {diffs : List FieldDiff}
    (h : d.store.Updates d.after d.now i row user diffs) (hcall : d.call.isInsertion = false)
    (hrows : d.rows = [row])
    (hfiled : d.filed? =
      if diffs.isEmpty then none else some ⟨row.key, user, row.updatedAt, diffs⟩) :
    d.Effect where
  writes := by rw [hrows]; exact h.writes
  stamps := by
    rw [hrows]
    simp only [List.mem_singleton, forall_eq]
    refine .updated hcall (h.key_eq ▸ h.hasRow) fun c old hc hshows => ?_
    rw [h.row_eq c old (h.key_eq ▸ hc) hshows]
    exact ⟨rfl, rfl⟩
  logs := by rw [hfiled]; exact h.logs
  belongs := by
    intro c hc
    rw [hfiled] at hc
    split_ifs at hc <;> cases hc
    exact (h.writes.holds row (by simp)).shows.hasRow

theorem Effect.of_appends {c : IssueChange} (h : d.store.Appends d.after c) (hrows : d.rows = [])
    (hfiled : d.filed? = some c) : d.Effect where
  writes := by rw [hrows]; exact h.writes
  stamps := by simp [hrows]
  logs := by rw [hfiled]; exact h.logs
  belongs := by
    rw [hfiled]
    rintro _ ⟨⟩
    exact (h.writes.hasRow_iff _).2 (.inl h.hasRow)

theorem effect (d : Deed) : d.Effect := by
  obtain ⟨s, now, c⟩ := d
  rcases hanswer : (s.perform now c).1 with e | a
  · exact .of_error hanswer
  have hrows : Deed.rows ⟨s, now, c⟩ = c.rows a := rows_of_eq_ok hanswer
  have hfiled : Deed.filed? ⟨s, now, c⟩ = c.filed? a := filed?_of_eq_ok hanswer
  have hdone : s.perform now c = (.ok a, (s.perform now c).2) := Prod.ext hanswer rfl
  cases c with
  | selectByKey | selectAll | selectChanges => exact .idle (perform_of_isReading rfl) hrows hfiled
  | insert is => exact .of_inserts (inserts_of_insert hdone) rfl hrows hfiled
  | update i =>
    have h := updates_of_updateWithChange ((perform_update s now i ⟨""⟩).symm.trans hdone)
    exact .of_updates h rfl hrows hfiled
  | updateWithChange i user diffs =>
    exact .of_updates (updates_of_updateWithChange hdone) rfl hrows hfiled
  | insertChange c =>
    exact .of_appends (appends_of_insertChange hdone) hrows hfiled

end Deed

/-! ## Calls one after the other -/

/-- The store after calls made one after the other. -/
def after (s : Store) (calls : List (Timestamp × StoreCall)) : Store :=
  calls.foldl (fun s call => (s.perform call.1 call.2).2) s

/-- The calls, each with the store that it is made on. -/
def deeds (s : Store) : List (Timestamp × StoreCall) → List Deed
  | [] => []
  | (now, c) :: calls => ⟨s, now, c⟩ :: (s.perform now c).2.deeds calls

theorem after_concat (s : Store) (calls : List (Timestamp × StoreCall)) (now : Timestamp)
    (c : StoreCall) : s.after (calls ++ [(now, c)]) = ((s.after calls).perform now c).2 := by
  simp [after]

theorem deeds_concat (s : Store) (calls : List (Timestamp × StoreCall)) (now : Timestamp)
    (c : StoreCall) :
    s.deeds (calls ++ [(now, c)]) = s.deeds calls ++ [⟨s.after calls, now, c⟩] := by
  induction calls generalizing s with
  | nil => rfl
  | cons call calls ih => exact congrArg (_ :: ·) (ih _)

theorem exists_after_of_mem_deeds {s : Store} {calls : List (Timestamp × StoreCall)} {d : Deed}
    (h : d ∈ s.deeds calls) : ∃ before, d.store = s.after before := by
  induction calls generalizing s with
  | nil => cases h
  | cons call calls ih =>
    obtain ⟨now, c⟩ := call
    rcases List.mem_cons.1 h with rfl | h
    · exact ⟨[], rfl⟩
    · obtain ⟨before, hbefore⟩ := ih h
      exact ⟨(now, c) :: before, hbefore⟩

/-- The rows that were written under the key, the oldest first. -/
def written (key : IssueKey) (ds : List Deed) : List Issue :=
  (ds.flatMap Deed.rows).filter (·.key = key)

/-- The entries that were filed under the key, the oldest first. -/
def filed (key : IssueKey) (ds : List Deed) : List IssueChange :=
  (ds.filterMap Deed.filed?).filter (·.issueKey = key)

/-- Whether the deeds account for all that lies in the store: under each key the row that was
written last, and the entries that were filed. -/
structure AccountedBy (s : Store) (ds : List Deed) : Prop where
  cell : ∀ key, Option.Rel Cell.Holds (s.cell? key) (written key ds).getLast?
  entries : ∀ key, List.Forall₂ Entry.Holds (s.entries key) (filed key ds)
  hasRow : ∀ key, s.entries key ≠ [] → s.HasRow key

theorem AccountedBy.nil (hcells : ∀ key, s.cell? key = none)
    (hentries : ∀ key, s.entries key = []) :
    s.AccountedBy [] where
  cell key := by rw [hcells]; exact .none
  entries key := by rw [hentries]; exact .nil
  hasRow key h := absurd (hentries key) h

variable {ds : List Deed} {d : Deed} {key : IssueKey}

theorem written_concat (key : IssueKey) (ds : List Deed) (d : Deed) :
    written key (ds ++ [d]) = written key ds ++ d.rows.filter (·.key = key) := by
  simp [written]

theorem filed_concat (key : IssueKey) (ds : List Deed) (d : Deed) :
    filed key (ds ++ [d]) = filed key ds ++ d.filed?.toList.filter (·.issueKey = key) := by
  cases hd : d.filed? <;> simp [filed, hd]

/-- One more call, one more deed. -/
theorem AccountedBy.step (h : d.store.AccountedBy ds) : d.after.AccountedBy (ds ++ [d]) where
  cell key := by
    -- the last row of the deed under the key, if it has any there, else the last one before it
    rw [written_concat, List.getLast?_append]
    rcases hlast : (d.rows.filter (·.key = key)).getLast? with _ | row
    · have hnone := List.filter_eq_nil_iff.1 (List.getLast?_eq_none_iff.1 hlast)
      rw [hlast, Option.none_or, d.effect.writes.others key (by simpa using hnone)]
      exact h.cell key
    · obtain ⟨hrow, hkey⟩ := List.mem_filter.1 (List.mem_of_getLast? hlast)
      obtain ⟨c, hc, hholds⟩ := d.effect.writes.holds row hrow
      rw [hlast, Option.some_or, ← of_decide_eq_true hkey, hc]
      exact .some hholds
  entries key := by
    rw [filed_concat]
    by_cases hkey : ∃ c ∈ d.filed?, c.issueKey = key
    · obtain ⟨c, hc, rfl⟩ := hkey
      obtain ⟨e, he, hentries⟩ := d.effect.logs.filed c hc
      rw [hentries, Option.mem_def.1 hc]
      exact List.rel_append (h.entries _) (by simpa using he)
    · have hnone : d.filed?.toList.filter (·.issueKey = key) = [] := by
        simpa [List.filter_eq_nil_iff] using hkey
      rw [hnone, List.append_nil, d.effect.logs.others key (by simpa using hkey)]
      exact h.entries key
  hasRow key hne := by
    by_cases hkey : ∃ c ∈ d.filed?, c.issueKey = key
    · obtain ⟨c, hc, rfl⟩ := hkey
      exact d.effect.belongs c hc
    · rw [d.effect.logs.others key (by simpa using hkey)] at hne
      exact (d.effect.writes.hasRow_iff key).2 (.inl (h.hasRow key hne))

/-- The deeds of calls made one after the other account for what they come to. -/
theorem AccountedBy.after (h : s.AccountedBy ds) (calls : List (Timestamp × StoreCall)) :
    (s.after calls).AccountedBy (ds ++ s.deeds calls) := by
  induction calls generalizing s ds with
  | nil => simpa [Store.after, deeds] using h
  | cons call calls ih =>
    obtain ⟨now, c⟩ := call
    have hstep : (s.perform now c).2.AccountedBy (ds ++ [⟨s, now, c⟩]) :=
      AccountedBy.step (d := ⟨s, now, c⟩) h
    simpa [Store.after, deeds] using ih hstep

theorem Fresh.accountedBy (h : s.Fresh) : s.AccountedBy [] := .nil h.cell?_eq h.entries_eq

end Store

end Triage
