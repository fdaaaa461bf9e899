import Mathlib.Data.List.Sort
import Triage.Proofs.KeyMap
import Triage.Proofs.Result
import Triage.Store.Database

/-!
# The checks of a row

What the reading calls of a database answer, whatever its tables hold.  A payload is read if it is
made of bytes, not too many of them, that encode a value.  An issue has to agree with the columns of
its row, and an entry has to belong to the issue that it is filed under.  A call answers the values
of rows that pass these checks, and fails where one row does not.  A changelog is answered in the
order of the numbers of its rows, wherever they lie in the table.
-/

namespace Triage

/-! ## Rows -/

/-- Whether the payload is bytes within the limit that encode `a`. -/
def Payload.Tells {α : Type} [JsonForm α] (p : Payload) (a : α) : Prop :=
  ∃ bytes, p = .blob bytes ∧ bytes.size ≤ maxPayloadBytes ∧
    ofJsonBytes? bytes = some a

/-- Whether the row at `key` passes its checks as `i`. -/
structure IssueRow.Passes (key : IssueKey) (r : IssueRow) (i : Issue) : Prop where
  tells : r.payload.Tells i
  key_eq : i.key = key
  createdAt_eq : i.createdAt = r.createdAt
  updatedAt_eq : i.updatedAt = r.updatedAt

/-- Whether a row that is filed under `key` passes its checks as `c`. -/
structure ChangeRow.Passes (key : IssueKey) (r : ChangeRow) (c : IssueChange) : Prop where
  tells : r.payload.Tells c
  key_eq : c.issueKey = key

namespace Payload

variable {α : Type} [JsonForm α] {p : Payload} {a b : α} {bytes : ByteArray} {column : String}

theorem decode_eq_ok : decode bytes = .ok a ↔
    bytes.size ≤ maxPayloadBytes ∧ ofJsonBytes? bytes = some a := by
  unfold decode checkSize
  by_cases hsize : bytes.size ≤ maxPayloadBytes
  · rw [if_neg (Nat.not_lt.2 hsize), ok_bind]
    rcases h : (ofJsonBytes? bytes : Option α) with _ | b <;> simp [hsize]
  · rw [if_pos (Nat.lt_of_not_le hsize)]
    simp [error_bind, hsize]

theorem bytes?_eq_ok : p.bytes? column = .ok bytes ↔ p = .blob bytes := by
  cases p <;> simp [bytes?]

/-- A cell is decoded as what it tells. -/
theorem tells_iff (column : String) :
    p.Tells a ↔ ∃ bytes, p.bytes? column = .ok bytes ∧ decode bytes = .ok a := by
  simp only [Tells, bytes?_eq_ok, decode_eq_ok]

theorem Tells.unique (ha : p.Tells a) (hb : p.Tells b) : a = b := by
  obtain ⟨bytes, hbytes, -, ha⟩ := ha
  obtain ⟨bytes', hbytes', -, hb⟩ := hb
  obtain rfl := Payload.blob.inj (hbytes.symm.trans hbytes')
  exact Option.some.inj (ha.symm.trans hb)

end Payload

namespace IssueRow

variable {key : IssueKey} {r : IssueRow} {i : Issue} {bytes : ByteArray}

theorem decode_eq_ok : r.decode key bytes = .ok i ↔ Payload.decode bytes = .ok i ∧
    i.key = key ∧ i.createdAt = r.createdAt ∧ i.updatedAt = r.updatedAt := by
  constructor
  · intro h
    unfold decode at h
    obtain ⟨j, hj, h⟩ := bind_eq_ok.1 h
    dsimp only at h
    split_ifs at h with hkey hstamps <;> simp at h
    subst h
    simp_all
  · rintro ⟨h, rfl, hcreated, hupdated⟩
    rw [decode, h, ok_bind]
    simp [hcreated, hupdated]

/-- A row is read as what it passes its checks as. -/
theorem passes_iff :
    r.Passes key i ↔ ∃ bytes, r.bytes? = .ok bytes ∧ r.decode key bytes = .ok i := by
  simp only [decode_eq_ok]
  constructor
  · rintro ⟨htells, hkey, hcreated, hupdated⟩
    obtain ⟨bytes, hbytes, hdecode⟩ := (Payload.tells_iff "issue_json").1 htells
    exact ⟨bytes, hbytes, hdecode, hkey, hcreated, hupdated⟩
  · rintro ⟨bytes, hbytes, hdecode, hkey, hcreated, hupdated⟩
    exact ⟨(Payload.tells_iff "issue_json").2 ⟨bytes, hbytes, hdecode⟩, hkey, hcreated, hupdated⟩

/-- A payload passes its checks beside no more than one set of columns. -/
theorem Passes.eq_of_payload_eq {key' : IssueKey} {r' : IssueRow} {j : Issue} (h : r.Passes key i)
    (h' : r'.Passes key' j) (hpayload : r'.payload = r.payload) : key' = key ∧ r' = r := by
  obtain rfl : j = i := (hpayload ▸ h'.tells).unique h.tells
  have hcreated : r'.createdAt = r.createdAt := h'.createdAt_eq.symm.trans h.createdAt_eq
  have hupdated : r'.updatedAt = r.updatedAt := h'.updatedAt_eq.symm.trans h.updatedAt_eq
  refine ⟨h'.key_eq.symm.trans h.key_eq, ?_⟩
  cases r
  cases r'
  simp_all

end IssueRow

namespace ChangeRow

variable {key : IssueKey} {r : ChangeRow} {c : IssueChange} {bytes : ByteArray}

theorem decode_eq_ok :
    decode key bytes = .ok c ↔ Payload.decode bytes = .ok c ∧ c.issueKey = key := by
  constructor
  · intro h
    unfold decode at h
    obtain ⟨d, hd, h⟩ := bind_eq_ok.1 h
    dsimp only at h
    split_ifs at h with hkey <;> simp at h
    subst h
    exact ⟨hd, not_not.1 hkey⟩
  · rintro ⟨h, rfl⟩
    rw [decode, h, ok_bind]
    simp

/-- A row is read as what it passes its checks as. -/
theorem passes_iff :
    r.Passes key c ↔ ∃ bytes, r.bytes? = .ok bytes ∧ decode key bytes = .ok c := by
  simp only [decode_eq_ok]
  constructor
  · rintro ⟨htells, hkey⟩
    obtain ⟨bytes, hbytes, hdecode⟩ := (Payload.tells_iff "change_json").1 htells
    exact ⟨bytes, hbytes, hdecode, hkey⟩
  · rintro ⟨bytes, hbytes, hdecode, hkey⟩
    exact ⟨(Payload.tells_iff "change_json").2 ⟨bytes, hbytes, hdecode⟩, hkey⟩

end ChangeRow

/-! ## The changelog table -/

namespace ChangeTable

variable {t : ChangeTable} {key : IssueKey} {r : ChangeRow} {rows : List ChangeRow}

theorem mem_filedUnder : r ∈ t.filedUnder key ↔ r ∈ t.rows ∧ r.issueKey = key := by
  rw [filedUnder, List.mem_mergeSort, List.mem_filter, decide_eq_true_iff]

theorem pairwise_filedUnder (t : ChangeTable) (key : IssueKey) :
    (t.filedUnder key).Pairwise (·.number < ·.number) := by
  have hsorted : (t.filedUnder key).Pairwise fun a b => decide (a.number ≤ b.number) = true :=
    List.pairwise_mergeSort (fun a b c hab hbc => by simp only [decide_eq_true_iff] at *; omega)
      (fun a b => by simp only [Bool.or_eq_true, decide_eq_true_iff]; omega) _
  have hapart : (t.filedUnder key).Pairwise (·.number ≠ ·.number) :=
    (List.Perm.pairwise_iff Ne.symm (List.mergeSort_perm _ _)).2
      ((List.pairwise_map.1 t.nodup).filter _)
  refine hsorted.imp₂ (fun a b hle hne => ?_) hapart
  exact lt_of_le_of_ne (of_decide_eq_true hle) hne

/-- There is one way only to list the rows filed under a key in the order of their numbers. -/
theorem eq_filedUnder (hrows : rows.Pairwise (·.number < ·.number))
    (hmem : ∀ r, r ∈ rows ↔ r ∈ t.rows ∧ r.issueKey = key) : rows = t.filedUnder key := by
  have : Std.Irrefl fun a b : ChangeRow => a.number < b.number := ⟨fun _ => lt_irrefl _⟩
  have : Std.Antisymm fun a b : ChangeRow => a.number < b.number :=
    ⟨fun _ _ hab hba => absurd hba (lt_asymm hab)⟩
  exact hrows.eq_of_mem_iff (t.pairwise_filedUnder key) fun r => (hmem r).trans mem_filedUnder.symm

/-- A row that is filed stands behind all others under its key. -/
theorem filedUnder_file (t : ChangeTable) (key key' : IssueKey) (stamp : Timestamp)
    (payload : Payload) : (t.file key' stamp payload).filedUnder key = t.filedUnder key ++
      [⟨t.lastId + 1, key', stamp, payload⟩].filter (·.issueKey = key) := by
  refine (eq_filedUnder (List.pairwise_append.2 ⟨t.pairwise_filedUnder key, ?_, ?_⟩) ?_).symm
  · exact (List.pairwise_singleton _ _).filter _
  · intro r hr r' hr'
    have hle := t.le_lastId r (mem_filedUnder.1 hr).1
    rw [List.mem_singleton.1 (List.mem_filter.1 hr').1]
    exact Int.lt_add_one_of_le hle
  · intro r
    simp [mem_filedUnder, file, or_and_right]

theorem filedUnder_empty (key : IssueKey) : (∅ : ChangeTable).filedUnder key = [] :=
  List.eq_nil_iff_forall_not_mem.2 fun _ hr => List.not_mem_nil (mem_filedUnder.1 hr).1

end ChangeTable

/-! ## Calls that read -/

namespace Database

variable {db : Database} {key : IssueKey} {i : Issue} {issues : List Issue}
  {log : List IssueChange}

theorem issueTable_eq_ok {t : KeyMap .issue IssueRow} :
    db.issueTable = .ok t ↔ db.issues = some t := by
  unfold issueTable
  split <;> simp_all

theorem changeTable_eq_ok {t : ChangeTable} : db.changeTable = .ok t ↔ db.changes = some t := by
  unfold changeTable
  split <;> simp_all

theorem load_eq_ok_none :
    db.load key = .ok none ↔ ∃ t, db.issues = some t ∧ t.get? key = none := by
  simp only [load, bind_eq_ok, issueTable_eq_ok]
  refine exists_congr fun t => and_congr_right fun _ => ?_
  rcases t.get? key with _ | r <;> simp

theorem load_eq_ok_some : db.load key = .ok (some i) ↔
    ∃ t r, db.issues = some t ∧ t.get? key = some r ∧ r.Passes key i := by
  simp only [load, bind_eq_ok, issueTable_eq_ok]
  refine exists_congr fun t => ?_
  rcases t.get? key with _ | r <;> simp [IssueRow.passes_iff]

theorem loadAll_eq_ok : db.loadAll = .ok issues ↔ ∃ t, db.issues = some t ∧
    List.Forall₂ (fun e i => e.2.Passes e.1 i) t.entries issues := by
  simp only [loadAll, bind_eq_ok, issueTable_eq_ok, mapM_mapM_eq_ok]
  simp [IssueRow.passes_iff]

theorem loadChanges_eq_ok : db.loadChanges key = .ok log ↔ ∃ t, db.changes = some t ∧
    List.Forall₂ (fun r c => r.Passes key c) (t.filedUnder key) log := by
  simp only [loadChanges, bind_eq_ok, changeTable_eq_ok, mapM_mapM_eq_ok, ChangeRow.passes_iff]

/-- A changelog is read as the entries of the rows filed under the key, in the order of their
numbers. -/
theorem loadChanges_eq_ok_of_rows : db.loadChanges key = .ok log ↔ ∃ t rows, db.changes = some t ∧
    (∀ r, r ∈ rows ↔ r ∈ t.rows ∧ r.issueKey = key) ∧ rows.Pairwise (·.number < ·.number) ∧
    List.Forall₂ (fun r c => r.Passes key c) rows log := by
  rw [loadChanges_eq_ok]
  refine exists_congr fun t => ⟨fun ⟨ht, hpass⟩ => ?_, fun ⟨rows, ht, hmem, hrows, hpass⟩ => ?_⟩
  · exact ⟨_, ht, fun _ => ChangeTable.mem_filedUnder, t.pairwise_filedUnder key, hpass⟩
  · exact ⟨ht, ChangeTable.eq_filedUnder hrows hmem ▸ hpass⟩

theorem exists_loadAll_iff : (∃ issues, db.loadAll = .ok issues) ↔
    ∃ t, db.issues = some t ∧ ∀ key r, t.get? key = some r → ∃ i, r.Passes key i := by
  simp only [loadAll_eq_ok]
  rw [exists_comm]
  simp only [exists_and_left, exists_forall₂_iff]
  refine exists_congr fun t => and_congr_right fun _ => ?_
  simp only [Prod.forall, KeyMap.mem_entries_iff]

theorem keys_of_loadAll_eq_ok (h : db.loadAll = .ok issues) :
    ∃ t, db.issues = some t ∧ issues.map (·.key) = t.keys := by
  obtain ⟨t, ht, hpass⟩ := loadAll_eq_ok.1 h
  have hkeys : List.Forall₂ (· = ·) (issues.map (·.key)) t.keys :=
    List.forall₂_map_left_iff.2 (List.forall₂_map_right_iff.2
      (hpass.flip.imp fun i e hi => hi.key_eq))
  rw [List.forall₂_eq_eq_eq] at hkeys
  exact ⟨t, ht, hkeys⟩

/-- The listed issues are those that are read under the keys of the table, in the order of the
keys. -/
theorem forall₂_of_loadAll_eq_ok (h : db.loadAll = .ok issues) : ∃ t, db.issues = some t ∧
    List.Forall₂ (fun key i => db.load key = .ok (some i)) t.keys issues ∧
    (issues.map (·.key)).Pairwise (· < ·) := by
  obtain ⟨t, ht, hpass⟩ := loadAll_eq_ok.1 h
  have hrows : ∀ e ∈ t.entries, t.get? e.1 = some e.2 := fun e he => KeyMap.mem_entries_iff.1 he
  have hread := ((List.forall₂_and_left _ _).2 ⟨hrows, hpass⟩).imp fun e i he =>
    load_eq_ok_some.2 ⟨t, e.2, ht, he.1, he.2⟩
  obtain ⟨t', ht', hkeys⟩ := keys_of_loadAll_eq_ok h
  cases ht.symm.trans ht'
  exact ⟨t, ht, List.forall₂_map_left_iff.2 hread, hkeys ▸ t.sorted_keys⟩

/-- What the reading calls of a database answer at `now`, told by its tables and the checks. -/
structure AnswersChecked (db : Database) (now : Timestamp) : Prop where
  selectByKey_some : ∀ key i, (db.perform now (.selectByKey key)).1 = .ok (some i) ↔
    ∃ t r, db.issues = some t ∧ t.get? key = some r ∧ r.Passes key i
  selectByKey_none : ∀ key, (db.perform now (.selectByKey key)).1 = .ok none ↔
    ∃ t, db.issues = some t ∧ t.get? key = none
  exists_selectAll : (∃ issues, (db.perform now .selectAll).1 = .ok issues) ↔
    ∃ t, db.issues = some t ∧ ∀ key r, t.get? key = some r → ∃ i, r.Passes key i
  selectAll : ∀ issues, (db.perform now .selectAll).1 = .ok issues → ∃ t, db.issues = some t ∧
    List.Forall₂ (fun key i => (db.perform now (.selectByKey key)).1 = .ok (some i))
      t.keys issues ∧
    (issues.map (·.key)).Pairwise (· < ·)
  selectChanges : ∀ key log, (db.perform now (.selectChanges key)).1 = .ok log ↔
    ∃ t rows, db.changes = some t ∧ (∀ r, r ∈ rows ↔ r ∈ t.rows ∧ r.issueKey = key) ∧
      rows.Pairwise (·.number < ·.number) ∧ List.Forall₂ (fun r c => r.Passes key c) rows log

theorem answersChecked (db : Database) (now : Timestamp) : db.AnswersChecked now where
  selectByKey_some _ _ := mapError_eq_ok.trans load_eq_ok_some
  selectByKey_none _ := mapError_eq_ok.trans load_eq_ok_none
  exists_selectAll := (exists_congr fun _ => mapError_eq_ok).trans exists_loadAll_iff
  selectAll issues h := by
    obtain ⟨t, ht, hread, hsorted⟩ := forall₂_of_loadAll_eq_ok (mapError_eq_ok.1 h)
    exact ⟨t, ht, hread.imp fun _ _ => mapError_eq_ok.2, hsorted⟩
  selectChanges _ _ := mapError_eq_ok.trans loadChanges_eq_ok_of_rows

/-! ## Rows that fail their checks -/

/-- Whether there is a row at the key that passes its checks as no issue. -/
def HasBadRow (db : Database) (key : IssueKey) : Prop :=
  ∃ t r, db.issues = some t ∧ t.get? key = some r ∧ ∀ i, ¬r.Passes key i

theorem HasBadRow.selectByKey (h : db.HasBadRow key) (now : Timestamp) :
    ∃ e, (db.perform now (.selectByKey key)).1 = .error e := by
  obtain ⟨t, r, ht, hr, hbad⟩ := h
  rcases hanswer : (db.perform now (.selectByKey key)).1 with e | _ | i
  · exact ⟨e, rfl⟩
  · obtain ⟨t', ht', hnone⟩ := ((db.answersChecked now).selectByKey_none key).1 hanswer
    cases ht.symm.trans ht'
    cases hr.symm.trans hnone
  · obtain ⟨t', r', ht', hr', hpass⟩ := ((db.answersChecked now).selectByKey_some key i).1 hanswer
    cases ht.symm.trans ht'
    cases hr.symm.trans hr'
    exact absurd hpass (hbad i)

theorem HasBadRow.selectAll (h : db.HasBadRow key) (now : Timestamp) :
    ∃ e, (db.perform now .selectAll).1 = .error e := by
  obtain ⟨t, r, ht, hr, hbad⟩ := h
  rcases hanswer : (db.perform now .selectAll).1 with e | rows
  · exact ⟨e, rfl⟩
  · obtain ⟨t', ht', hpass⟩ := (db.answersChecked now).exists_selectAll.1 ⟨rows, hanswer⟩
    cases ht.symm.trans ht'
    obtain ⟨i, hi⟩ := hpass key r hr
    exact absurd hi (hbad i)

end Database

end Triage
