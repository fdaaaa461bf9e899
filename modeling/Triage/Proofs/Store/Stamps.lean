import Triage.Proofs.Store.Reread

/-!
# Stamps over whole runs

The time of an insertion stays the first stamp of its row for good.  The second stamp grows with
every update, whatever the clock shows, until it is the last one that there is; and the entry of an
update has the second stamp of the row that it was filed with.  All of this is told of what is read
of the store before a call and after it.
-/

namespace Triage

namespace Timestamp

variable {t now : Timestamp}

theorem toInt_succ (t : Timestamp) :
    t.succ.millis.toInt = min (t.millis.toInt + 1) Int64.maxValue.toInt := by
  unfold succ
  split_ifs with h
  · rw [h, min_eq_right (by omega)]
  · have hne : t.millis.toInt ≠ Int64.maxValue.toInt := fun heq => h (Int64.toInt_inj.1 heq)
    have hle := t.millis.toInt_le
    have hge := t.millis.le_toInt
    have hone : (1 : Int64).toInt = 1 := by decide
    rw [min_eq_left (by omega), Int64.toInt_add, hone]
    rw [Int64.toInt_maxValue] at hne hle
    exact Int.bmod_eq_of_le (by omega) (by omega)

/-- The next stamp is the later of the time and one past the last stamp. -/
theorem toInt_nextAfter (t now : Timestamp) : (t.nextAfter now).millis.toInt =
    max now.millis.toInt (min (t.millis.toInt + 1) Int64.maxValue.toInt) := by
  have hle := now.millis.toInt_le
  unfold nextAfter
  split_ifs with h
  · have hlt : t.millis.toInt < now.millis.toInt := Int64.lt_iff_toInt_lt.1 h
    omega
  · have hge : ¬t.millis.toInt < now.millis.toInt := fun hlt => h (Int64.lt_iff_toInt_lt.2 hlt)
    rw [toInt_succ]
    have hle' := t.millis.toInt_le
    omega

theorem le_nextAfter (t now : Timestamp) : t.millis ≤ (t.nextAfter now).millis := by
  have hle := t.millis.toInt_le
  rw [Int64.le_iff_toInt_le, toInt_nextAfter]
  omega

/-- The next stamp is after every stamp up to the last one, but for the last stamp of all. -/
theorem lt_nextAfter {u : Timestamp} (hu : u.millis ≤ t.millis) (hne : u.millis ≠ Int64.maxValue)
    (now : Timestamp) : u < t.nextAfter now := by
  have hu' := Int64.le_iff_toInt_le.1 hu
  have hne' : u.millis.toInt ≠ Int64.maxValue.toInt := fun heq => hne (Int64.toInt_inj.1 heq)
  have hle := u.millis.toInt_le
  refine Int64.lt_iff_toInt_lt.2 ?_
  rw [toInt_nextAfter]
  omega

end Timestamp

/-- The issue that the call stores over the row with its key. -/
def StoreCall.revision? : StoreCall → Option Issue
  | .update i | .updateWithChange i _ _ => some i
  | _ => none

namespace Store

/-! ## What deeds tell of stamps -/

namespace Deed

variable {d : Deed} {i row : Issue} {c : IssueChange}

theorem exists_updates (hi : d.call.revision? = some i) {a : d.call.Answer}
    (ha : d.answer = .ok a) :
    ∃ row user diffs, d.call.rows a = [row] ∧
      d.store.Updates d.after d.now i row user diffs := by
  obtain ⟨s, now, call⟩ := d
  have hdone : s.perform now call = (.ok a, (s.perform now call).2) := Prod.ext ha rfl
  cases call with
  | update j =>
    cases hi
    have hbare := (perform_update s now i ⟨""⟩).symm.trans hdone
    exact ⟨a, ⟨""⟩, [], rfl, updates_of_updateWithChange hbare⟩
  | updateWithChange j user diffs =>
    cases hi
    exact ⟨a, user, diffs, rfl, updates_of_updateWithChange hdone⟩
  | insert | selectByKey | selectAll | insertChange | selectChanges => cases hi

/-- A row that was written is read after the deed. -/
theorem selectByKey_after (hrow : row ∈ d.rows) (now : Timestamp) :
    (d.after.perform now (.selectByKey row.key)).1 = .ok (some (d.store.reread row)) := by
  rw [(d.effect.writes.holds row hrow).perform_selectByKey, after, reread_perform]

/-- Whether the deed has put a new row under the key. -/
def insertsAt (d : Deed) (key : IssueKey) : Bool :=
  d.call.isInsertion && d.rows.any (·.key = key)

/-- An entry of an update is filed with its row, and has its key and its second stamp. -/
theorem of_mem_committed? (h : c ∈ d.committed?) : d.call.isInsertion = false ∧
    d.filed? = some c ∧ ∃ row ∈ d.rows, c.issueKey = row.key ∧ c.createdAt = row.updatedAt := by
  obtain ⟨s, now, call⟩ := d
  rcases hanswer : Deed.answer ⟨s, now, call⟩ with e | a
  · rw [committed?, hanswer] at h
    cases h
  · rw [committed?_of_eq_ok hanswer] at h
    rw [filed?_of_eq_ok hanswer, rows_of_eq_ok hanswer]
    cases call with
    | updateWithChange i user diffs =>
      refine ⟨rfl, h, a, List.mem_singleton_self a, ?_⟩
      simp only [StoreCall.committed?] at h
      split_ifs at h <;> cases h
      exact ⟨rfl, rfl⟩
    | insert | selectByKey | selectAll | update | insertChange | selectChanges => cases h

end Deed

/-- The times of the insertions under the key. -/
def insertions (key : IssueKey) (ds : List Deed) : List Timestamp :=
  (ds.filter (·.insertsAt key)).map (·.now)

/-- The entries of updates under the key, the oldest first. -/
def committed (key : IssueKey) (ds : List Deed) : List IssueChange :=
  (ds.filterMap Deed.committed?).filter (·.issueKey = key)

/-- How the stamps under the key have come about by the deeds: the row that was written last has the
time of the one insertion for its first stamp, which is not after its second one, and the stamps of
the entries of updates grow up to that. -/
structure Stamped (key : IssueKey) (ds : List Deed) : Prop where
  created : insertions key ds = (written key ds).getLast?.toList.map (·.createdAt)
  ordered : ∀ row ∈ (written key ds).getLast?, row.createdAt.millis ≤ row.updatedAt.millis
  latest : ∀ c ∈ committed key ds,
    ∃ row ∈ (written key ds).getLast?, c.createdAt.millis ≤ row.updatedAt.millis
  increasing : (committed key ds).Pairwise fun a b =>
    a.createdAt.millis ≠ Int64.maxValue → a.createdAt < b.createdAt

variable {s : Store} {ds : List Deed} {d : Deed} {key : IssueKey} {row old : Issue}

theorem stamped_nil (key : IssueKey) : Stamped key [] where
  created := rfl
  ordered := by simp [written]
  latest := by simp [committed]
  increasing := .nil

theorem insertions_concat (key : IssueKey) (ds : List Deed) (d : Deed) :
    insertions key (ds ++ [d]) =
      insertions key ds ++ if d.insertsAt key then [d.now] else [] := by
  by_cases hd : d.insertsAt key <;> simp [insertions, hd]

theorem committed_concat (key : IssueKey) (ds : List Deed) (d : Deed) :
    committed key (ds ++ [d]) =
      committed key ds ++ d.committed?.toList.filter (·.issueKey = key) := by
  cases hd : d.committed? <;> simp [committed, hd]

/-- A row that the deed has changed had a row before it, whose stamps it continues. -/
theorem AccountedBy.exists_old (h : d.store.AccountedBy ds) (hcall : d.call.isInsertion = false)
    (hrow : row ∈ d.rows) : ∃ old, (written row.key ds).getLast? = some old ∧
      row.createdAt = old.createdAt ∧ row.updatedAt = old.updatedAt.nextAfter d.now := by
  cases d.effect.stamps row hrow with
  | inserted hinsertion => exact absurd (hcall.symm.trans hinsertion) (by decide)
  | updated _ hold hstamps =>
    have hcell := h.cell row.key
    obtain ⟨c, hc⟩ := Option.isSome_iff_exists.1 hold
    rw [hc] at hcell
    generalize hlast : (written row.key ds).getLast? = last at hcell
    cases hcell with
    | some hholds => exact ⟨_, rfl, hstamps c _ hc (.inl hholds)⟩

/-- A row that the deed has inserted is the first one under its key. -/
theorem AccountedBy.of_inserted (h : d.store.AccountedBy ds) (hcall : d.call.isInsertion = true)
    (hrow : row ∈ d.rows) : (written row.key ds).getLast? = none ∧
      row.createdAt = d.now ∧ row.updatedAt = d.now := by
  cases d.effect.stamps row hrow with
  | inserted _ hfresh hcreated hupdated =>
    exact ⟨h.written_eq_none (not_hasRow_iff.1 hfresh), hcreated, hupdated⟩
  | updated hupdate => exact absurd (hcall.symm.trans hupdate) (by decide)

theorem getLast?_written_concat (ds : List Deed)
    (hrow : (d.rows.filter (·.key = key)).getLast? = some row) :
    (written key (ds ++ [d])).getLast? = some row := by
  rw [written_concat, List.getLast?_append, hrow]
  rfl

theorem written_concat_of_forall_ne (ds : List Deed) (hd : ∀ row ∈ d.rows, row.key ≠ key) :
    written key (ds ++ [d]) = written key ds := by
  rw [written_concat, List.filter_eq_nil_iff.2 (by simpa using hd), List.append_nil]

/-- A deed that writes no row under the key. -/
theorem Stamped.concat_of_forall_ne (hds : Stamped key ds) (hd : ∀ row ∈ d.rows, row.key ≠ key) :
    Stamped key (ds ++ [d]) := by
  have hwritten := written_concat_of_forall_ne ds hd
  have hinsertions : insertions key (ds ++ [d]) = insertions key ds := by
    have hnot : d.insertsAt key = false := by
      simp only [Deed.insertsAt, Bool.and_eq_false_iff, List.any_eq_false]
      exact .inr (by simpa using hd)
    rw [insertions_concat, hnot]
    simp
  have hcommitted : committed key (ds ++ [d]) = committed key ds := by
    have hnil : d.committed?.toList.filter (·.issueKey = key) = [] := by
      refine List.filter_eq_nil_iff.2 fun c hc hkey => ?_
      obtain ⟨-, -, row, hrow, hissue, -⟩ := Deed.of_mem_committed? (Option.mem_toList.1 hc)
      exact hd row hrow (hissue.symm.trans (of_decide_eq_true hkey))
    rw [committed_concat, hnil, List.append_nil]
  refine ⟨?_, ?_, ?_, ?_⟩
  · rw [hinsertions, hwritten]
    exact hds.created
  · rw [hwritten]
    exact hds.ordered
  · rw [hwritten, hcommitted]
    exact hds.latest
  · rw [hcommitted]
    exact hds.increasing

/-- A deed that has put a new row under the key. -/
theorem Stamped.concat_of_inserted (hds : Stamped key ds) (h : d.store.AccountedBy ds)
    (hcall : d.call.isInsertion = true) (hrow : (d.rows.filter (·.key = key)).getLast? = some row) :
    Stamped key (ds ++ [d]) := by
  obtain ⟨hmem, hkey⟩ := List.mem_filter.1 (List.mem_of_getLast? hrow)
  obtain rfl := of_decide_eq_true hkey
  obtain ⟨hnone, hcreated, hupdated⟩ := h.of_inserted hcall hmem
  have hlast := getLast?_written_concat ds hrow
  have hinserts : d.insertsAt row.key = true := by
    simp only [Deed.insertsAt, hcall, Bool.true_and, List.any_eq_true]
    exact ⟨row, hmem, by simp⟩
  have hcommitted : committed row.key (ds ++ [d]) = [] := by
    have hold : committed row.key ds = [] := List.eq_nil_iff_forall_not_mem.2 fun c hc => by
      obtain ⟨old, hold, -⟩ := hds.latest c hc
      rw [hnone] at hold
      cases hold
    have hnew : d.committed? = none := Option.eq_none_iff_forall_not_mem.2 fun c hc =>
      absurd (hcall.symm.trans (Deed.of_mem_committed? hc).1) (by decide)
    rw [committed_concat, hold, hnew]
    rfl
  refine ⟨?_, ?_, ?_, ?_⟩
  · rw [insertions_concat, hinserts, hds.created, hnone, hlast]
    simp [hcreated]
  · rw [hlast]
    rintro _ ⟨⟩
    rw [hcreated, hupdated]
    exact Int64.le_refl _
  · simp [hcommitted]
  · rw [hcommitted]
    exact .nil

/-- A deed that has changed the row under the key. -/
theorem Stamped.concat_of_updated (hds : Stamped key ds) (h : d.store.AccountedBy ds)
    (hcall : d.call.isInsertion = false)
    (hrow : (d.rows.filter (·.key = key)).getLast? = some row) :
    Stamped key (ds ++ [d]) := by
  obtain ⟨hmem, hkey⟩ := List.mem_filter.1 (List.mem_of_getLast? hrow)
  obtain rfl := of_decide_eq_true hkey
  obtain ⟨old, hold, hcreated, hupdated⟩ := h.exists_old hcall hmem
  have hlast := getLast?_written_concat ds hrow
  have hinserts : d.insertsAt row.key = false := by simp [Deed.insertsAt, hcall]
  have hgrows : old.updatedAt.millis ≤ row.updatedAt.millis :=
    hupdated ▸ old.updatedAt.le_nextAfter d.now
  -- whatever the deed has filed under the key has the second stamp of the row
  have hnew : ∀ c ∈ d.committed?.toList.filter (·.issueKey = row.key),
      c.createdAt = row.updatedAt := by
    intro c hc
    obtain ⟨hc, hissue⟩ := List.mem_filter.1 hc
    obtain ⟨-, -, row', hmem', hkey', hstamp⟩ := Deed.of_mem_committed? (Option.mem_toList.1 hc)
    obtain ⟨old', hold', -, hupdated'⟩ := h.exists_old hcall hmem'
    rw [← hkey', of_decide_eq_true hissue, hold] at hold'
    cases hold'
    rw [hstamp, hupdated, hupdated']
  have hearlier : ∀ c ∈ committed row.key ds, c.createdAt.millis ≤ old.updatedAt.millis := by
    intro c hc
    obtain ⟨old', hold', hle⟩ := hds.latest c hc
    cases hold.symm.trans hold'
    exact hle
  refine ⟨?_, ?_, ?_, ?_⟩
  · rw [insertions_concat, hinserts, hds.created, hold, hlast]
    simp [hcreated]
  · rw [hlast]
    rintro _ ⟨⟩
    rw [hcreated]
    exact Int64.le_trans (hds.ordered old hold) hgrows
  · intro c hc
    rw [hlast]
    refine ⟨row, rfl, ?_⟩
    rw [committed_concat] at hc
    rcases List.mem_append.1 hc with hc | hc
    · exact Int64.le_trans (hearlier c hc) hgrows
    · rw [hnew c hc]
      exact Int64.le_refl _
  · rw [committed_concat]
    refine List.pairwise_append.2 ⟨hds.increasing, ?_, fun a ha b hb hne => ?_⟩
    · refine List.Pairwise.filter _ ?_
      cases d.committed? with
      | none => exact .nil
      | some c => exact List.pairwise_singleton _ c
    · rw [hnew b hb, hupdated]
      exact Timestamp.lt_nextAfter (hearlier a ha) hne d.now

theorem AccountedBy.stamped (h : d.store.AccountedBy ds) (hds : Stamped key ds) :
    Stamped key (ds ++ [d]) := by
  rcases hlast : (d.rows.filter (·.key = key)).getLast? with _ | row
  · have hnone := List.filter_eq_nil_iff.1 (List.getLast?_eq_none_iff.1 hlast)
    exact hds.concat_of_forall_ne (by simpa using hnone)
  · rcases hcall : d.call.isInsertion with _ | _
    · exact hds.concat_of_updated h hcall hlast
    · exact hds.concat_of_inserted h hcall hlast

/-! ## Whole runs -/

theorem Fresh.stamped (hs : s.Fresh) (calls : List (Timestamp × StoreCall)) (key : IssueKey) :
    Stamped key (s.deeds calls) := by
  induction calls using List.reverseRecOn with
  | nil => exact stamped_nil key
  | append_singleton calls call ih =>
    obtain ⟨now, c⟩ := call
    rw [deeds_concat]
    exact AccountedBy.stamped (d := ⟨s.after calls, now, c⟩) (hs.accountedBy.after calls) ih

theorem committed_sublist_filed (key : IssueKey) (ds : List Deed) :
    (committed key ds).Sublist (filed key ds) := by
  refine List.Sublist.filter _ ?_
  induction ds with
  | nil => exact .slnil
  | cons d ds ih =>
    rcases hd : d.committed? with _ | c
    · rw [List.filterMap_cons_none hd]
      exact ih.trans (List.Sublist.filterMap _ (List.sublist_cons_self d ds))
    · rw [List.filterMap_cons_some hd, List.filterMap_cons_some (Deed.of_mem_committed? hd).2.1]
      exact ih.cons_cons c

/-! ## What is read before a deed and after it -/

/-- How an update to `i` with the answer `row` moves on from what was read under its key: the row is
`i` with the first stamp of that and a later second one, and it is what is read from then on. -/
def Deed.Advances (d : Deed) (i row : Issue) : Prop :=
  ∃ old, (∀ now, (d.store.perform now (.selectByKey i.key)).1 = .ok (some old)) ∧
    (∀ now, (d.after.perform now (.selectByKey i.key)).1 = .ok (some (d.store.reread row))) ∧
    row = { i with createdAt := old.createdAt, updatedAt := row.updatedAt } ∧
    row.updatedAt.millis.toInt =
      max d.now.millis.toInt (min (old.updatedAt.millis.toInt + 1) Int64.maxValue.toInt) ∧
    (old.updatedAt.millis ≠ Int64.maxValue → old.updatedAt < row.updatedAt)

/-- How an insertion brings in `row`: nothing was read under its key before, and then the row is,
with the time for both its stamps. -/
def Deed.Begins (d : Deed) (row : Issue) : Prop :=
  (∀ now, (d.store.perform now (.selectByKey row.key)).1 = .ok none) ∧
    (∀ now, (d.after.perform now (.selectByKey row.key)).1 = .ok (some (d.store.reread row))) ∧
    row.createdAt = d.now ∧ row.updatedAt = d.now

/-- How the entry of an update is filed: at the end of its changelog, with the second stamp of the
row that is read from then on. -/
def Deed.Commits (d : Deed) (c : IssueChange) : Prop :=
  ∃ row log, (∀ now, (d.after.perform now (.selectByKey c.issueKey)).1 = .ok (some row)) ∧
    c.createdAt = row.updatedAt ∧
    (∀ now, (d.store.perform now (.selectChanges c.issueKey)).1 = .ok log) ∧
    ∀ now, (d.after.perform now (.selectChanges c.issueKey)).1 = .ok (log ++ [c])

/-- What a deed comes to in the stamps that are read. -/
structure Deed.SetsStamps (d : Deed) : Prop where
  update : ∀ i, d.call.revision? = some i → ∀ a, d.answer = .ok a →
    ∃ row, d.call.rows a = [row] ∧ d.Advances i row
  insertion : d.call.isInsertion = true → ∀ row ∈ d.rows, d.Begins row
  elsewhere : ∀ key, (∀ row ∈ d.rows, row.key ≠ key) → ∀ now now',
    (d.after.perform now (.selectByKey key)).1 = (d.store.perform now' (.selectByKey key)).1
  entry : ∀ c ∈ d.committed?, d.Commits c

theorem AccountedBy.advances (h : d.store.AccountedBy ds) (hs : d.store.HasTables) {i : Issue}
    (hi : d.call.revision? = some i) {a : d.call.Answer} (ha : d.answer = .ok a) :
    ∃ row, d.call.rows a = [row] ∧ d.Advances i row := by
  obtain ⟨row, user, diffs, hrows, hupdates⟩ := Deed.exists_updates hi ha
  have hrow : row ∈ d.rows := by
    rw [Deed.rows_of_eq_ok ha, hrows]
    exact List.mem_singleton_self row
  obtain ⟨c, hc⟩ := Option.isSome_iff_exists.1 hupdates.hasRow
  have hcell := h.cell i.key
  rw [hc] at hcell
  generalize hlast : (written i.key ds).getLast? = last at hcell
  cases hcell with
  | @some _ old hholds =>
    obtain rfl := hupdates.row_eq c old hc (.inl hholds)
    refine ⟨_, hrows, d.store.reread old, fun now => ?_, Deed.selectByKey_after hrow, ?_, ?_, ?_⟩
    · rw [(h.answers hs now).selectByKey, hlast, Option.map_some]
    · rw [createdAt_reread]
      rfl
    · rw [updatedAt_reread]
      exact Timestamp.toInt_nextAfter _ _
    · rw [updatedAt_reread]
      exact fun hne => Timestamp.lt_nextAfter (Int64.le_refl _) hne d.now

theorem AccountedBy.begins (h : d.store.AccountedBy ds) (hs : d.store.HasTables)
    (hcall : d.call.isInsertion = true) (hrow : row ∈ d.rows) : d.Begins row := by
  obtain ⟨hnone, hstamps⟩ := h.of_inserted hcall hrow
  refine ⟨fun now => ?_, Deed.selectByKey_after hrow, hstamps⟩
  rw [(h.answers hs now).selectByKey, hnone, Option.map_none]

theorem AccountedBy.commits (h : d.store.AccountedBy ds) (hs : d.store.HasTables) {c : IssueChange}
    (hc : c ∈ d.committed?) : d.Commits c := by
  obtain ⟨-, hfiled, row, hrow, hkey, hstamp⟩ := Deed.of_mem_committed? hc
  refine ⟨d.store.reread row, filed c.issueKey ds, fun now => ?_, ?_, fun now => ?_, fun now => ?_⟩
  · rw [hkey]
    exact Deed.selectByKey_after hrow now
  · rw [updatedAt_reread, hstamp]
  · exact (h.answers hs now).selectChanges c.issueKey
  · rw [(h.step.answers (hs.perform d.now d.call) now).selectChanges, filed_concat, hfiled]
    simp

theorem AccountedBy.setsStamps (h : d.store.AccountedBy ds) (hs : d.store.HasTables) :
    d.SetsStamps where
  update _ hi _ ha := h.advances hs hi ha
  insertion hcall _ hrow := h.begins hs hcall hrow
  elsewhere key hd now now' := by
    rw [(h.step.answers (hs.perform d.now d.call) now).selectByKey, (h.answers hs now').selectByKey,
      written_concat_of_forall_ne ds hd]
    exact congrArg (fun f => Except.ok (Option.map f _)) (funext (reread_perform _ _ _))
  entry _ hc := h.commits hs hc

/-- What is read of the stamps under the key at `now` if `ds` are the deeds so far. -/
structure TellsStamps (s : Store) (ds : List Deed) (now : Timestamp) (key : IssueKey) : Prop where
  row : ∃ row?, (s.perform now (.selectByKey key)).1 = .ok row? ∧
    insertions key ds = row?.toList.map (·.createdAt) ∧
    ∀ row ∈ row?, row.createdAt.millis ≤ row.updatedAt.millis
  log : (s.perform now (.selectChanges key)).1 = .ok (filed key ds)
  sublist : (committed key ds).Sublist (filed key ds)
  increasing : (committed key ds).Pairwise fun a b =>
    a.createdAt.millis ≠ Int64.maxValue → a.createdAt < b.createdAt

theorem Stamped.tells (h : Stamped key ds) (hs : s.AccountedBy ds) (ht : s.HasTables)
    (now : Timestamp) : s.TellsStamps ds now key where
  row := by
    refine ⟨_, (hs.answers ht now).selectByKey key, ?_, ?_⟩
    · rw [h.created, Option.toList_map, List.map_map]
      simp [Function.comp_def]
    · intro row hrow
      obtain ⟨i, hi, rfl⟩ := Option.map_eq_some_iff.1 hrow
      simpa using h.ordered i hi
  log := (hs.answers ht now).selectChanges key
  sublist := committed_sublist_filed key ds
  increasing := h.increasing

/-- In a store that starts empty, of either kind, every update and every insertion sets the stamps
that are read under its key and in its changelog, no other call does, and rows and changelogs are
read with the stamps that the calls tell. -/
theorem stamps_of_calls (hs : s.Fresh) (calls : List (Timestamp × StoreCall)) :
    (∀ d ∈ s.deeds calls, d.SetsStamps) ∧
      ∀ now key, (s.after calls).TellsStamps (s.deeds calls) now key := by
  refine ⟨fun d hd => ?_, fun now key => ?_⟩
  · obtain ⟨before, hbefore⟩ := exists_after_of_mem_deeds hd
    have haccounted := hs.accountedBy.after before
    rw [← hbefore] at haccounted
    exact haccounted.setsStamps (hbefore ▸ hs.hasTables.after before)
  · exact (hs.stamped calls key).tells (hs.accountedBy.after calls) (hs.hasTables.after calls) now

/-- A row is stored and changed twice while the clock goes back, with other stamps passed. -/
def backwardCalls : List (Timestamp × StoreCall) :=
  let row := { Issue.fresh ⟨"ABCD"⟩ ⟨"repo:rule"⟩ ⟨⟨"app:a.c"⟩, ⟨"c1"⟩, ⟨"p1"⟩⟩ with
    createdAt := ⟨7⟩ }
  [(⟨1000⟩, .insert [row]),
    (⟨-5⟩, .updateWithChange { row with severity := .blocker } ⟨"ada"⟩
      [⟨"severity", some "MAJOR", some "BLOCKER"⟩]),
    (⟨-5⟩, .updateWithChange row ⟨"ada"⟩ [⟨"severity", some "BLOCKER", some "MAJOR"⟩])]

theorem stamps_of_calls_sample : (memory {}).Fresh ∧
    insertions ⟨"ABCD"⟩ ((memory {}).deeds backwardCalls) = [⟨1000⟩] ∧
    (committed ⟨"ABCD"⟩ ((memory {}).deeds backwardCalls)).map (·.createdAt) = [⟨1001⟩, ⟨1002⟩] ∧
    (∀ d ∈ (memory {}).deeds backwardCalls, d.SetsStamps) ∧
    ((memory {}).after backwardCalls).TellsStamps ((memory {}).deeds backwardCalls) ⟨0⟩
      ⟨"ABCD"⟩ := by
  obtain ⟨hdeeds, htells⟩ := stamps_of_calls .memory backwardCalls
  exact ⟨.memory, by decide +kernel, by decide +kernel, hdeeds, htells ⟨0⟩ ⟨"ABCD"⟩⟩

end Store

end Triage
