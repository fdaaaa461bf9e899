import Triage.Proofs.Store.Reread

/-!
# Batches

A call that writes is made as a whole or not at all.  So a batch of new issues comes to the same as
its issues inserted one at a time, except that what the first of them have written is taken back if
a later one is refused.  A call is refused because a key is taken or has no row, or because what
would be written does not fit a payload, and for nothing else.
-/

namespace Triage

/-! ## Transactions one after the other -/

/-- A result that counts only if it is one: the state `s` stays where there is an error. -/
def orBack {σ ε α : Type} (s : σ) : Except ε α × σ → Except ε α × σ
  | (.ok a, s') => (.ok a, s')
  | (.error e, _) => (.error e, s)

@[simp]
theorem fst_orBack {σ ε α : Type} (s : σ) (r : Except ε α × σ) : (orBack s r).1 = r.1 := by
  obtain ⟨_ | _, _⟩ := r <;> rfl

theorem orBack_map_orBack {σ ε α β : Type} (s s' : σ) (f : α → β) (r : Except ε α × σ) :
    orBack s ((orBack s' r).map (Except.map f) id) = orBack s (r.map (Except.map f) id) := by
  obtain ⟨_ | _, _⟩ := r <;> rfl

theorem map_orBack {σ τ ε α β : Type} (c : σ → τ) (s : σ) (f : α → β) (r : Except ε α × σ) :
    (orBack s (r.map (Except.map f) id)).map id c =
      orBack (c s) ((r.map id c).map (Except.map f) id) := by
  obtain ⟨_ | _, _⟩ := r <;> rfl

namespace Database

variable {db db' : Database} {α β : Type}

theorem commit_of_run_eq_error {t : Transaction α} {e : DatabaseError} (h : t.run db = .error e) :
    db.commit t = (.error e, db) := by
  rw [commit, h]

theorem run_eq_error_of_commit {t : Transaction α} {e : DatabaseError}
    (h : (db.commit t).1 = .error e) : t.run db = .error e := by
  unfold commit at h
  split at h <;> simp_all

/-- A transaction of two parts, the first of which succeeds, is the second one from there on. -/
theorem commit_bind_of_run_eq_ok {t : Transaction α} {f : α → Transaction β} {a : α}
    (h : t.run db = .ok (a, db')) : db.commit (t >>= f) = orBack db (db'.commit (f a)) := by
  unfold commit
  rw [run_bind_of_eq_ok h]
  rcases (f a).run db' with e | ⟨b, db''⟩ <;> rfl

end Database

/-- The issue that the call changes or files an entry of. -/
def StoreCall.subject? : StoreCall → Option IssueKey
  | .update i | .updateWithChange i _ _ => some i.key
  | .insertChange c => some c.issueKey
  | _ => none

namespace Store

/-- The insertions of a batch one at a time, up to the first that fails. -/
def insertEach (s : Store) (now : Timestamp) :
    List Issue → Except StoreError (List Issue) × Store
  | [] => (.ok [], s)
  | i :: is =>
    match s.perform now (.insert [i]) with
    | (.error e, s') => (.error e, s')
    | (.ok rows, s') => (s'.insertEach now is).map (Except.map (rows ++ ·)) id

end Store

/-! ## The first issue of a batch -/

namespace MemoryStore

variable {m : MemoryStore} {now : Timestamp} {i : Issue}

theorem insert_of_taken (h : m.issues.contains i.key = true) (is : List Issue) :
    m.insert now (i :: is) = (.error (.issueExists i.key), m) := by
  simp [insert, firstTaken?, h]

theorem insert_single (h : m.issues.contains i.key = false) :
    m.insert now [i] = (.ok [i.inserted now], m.put (i.inserted now)) := by
  simp [insert, firstTaken?, h]

theorem insert_cons_of_free (h : m.issues.contains i.key = false) (is : List Issue) :
    m.insert now (i :: is) = orBack m
      (((m.put (i.inserted now)).insert now is).map (Except.map ([i.inserted now] ++ ·)) id) := by
  have htaken : m.firstTaken? [] (i :: is) = (m.put (i.inserted now)).firstTaken? [] is := by
    rw [(m.checksAlike_put (i.inserted now)).firstTaken?_eq is]
    simp [firstTaken?, h, Issue.inserted]
  unfold insert
  rw [htaken]
  split <;> rfl

end MemoryStore

namespace Database

open Transaction

variable {db db' : Database} {now : Timestamp} {i row : Issue}

theorem perform_insert_of_run_eq_error {e : DatabaseError}
    (h : (insertIssue now i).run db = .error e) (is : List Issue) :
    db.perform now (.insert (i :: is)) = (.error e.toStoreError, db) := by
  have hrun : ((i :: is).mapM (insertIssue now)).run db = .error e := by
    rw [List.mapM_cons]
    exact run_bind_of_eq_error h
  rw [perform, run, commit_of_run_eq_error hrun]
  rfl

theorem perform_insert_of_run_eq_ok (h : (insertIssue now i).run db = .ok (row, db'))
    (is : List Issue) : db.perform now (.insert (i :: is)) =
      orBack db ((db'.perform now (.insert is)).map (Except.map ([row] ++ ·)) id) := by
  simp only [perform, run]
  rw [List.mapM_cons, commit_bind_of_run_eq_ok h]
  unfold commit
  rcases hrest : (is.mapM (insertIssue now)).run db' with e | ⟨rows, db''⟩
  · rw [run_bind_of_eq_error hrest]
    rfl
  · rw [run_bind_of_eq_ok hrest]
    rfl

end Database

namespace Store

variable {s s' : Store} {now : Timestamp} {i : Issue} {is rows : List Issue}

/-- An issue is refused, and so is every batch that begins with it; or it is stored, and every batch
that begins with it goes on with the others. -/
theorem insert_cons (s : Store) (now : Timestamp) (i : Issue) :
    (∃ e, ∀ is, s.perform now (.insert (i :: is)) = (.error e, s)) ∨
      ∃ s', s.perform now (.insert [i]) = (.ok [i.inserted now], s') ∧
        ∀ is, s.perform now (.insert (i :: is)) =
          orBack s ((s'.perform now (.insert is)).map (Except.map ([i.inserted now] ++ ·)) id) := by
  cases s with
  | memory m =>
    rcases hfree : m.issues.contains i.key with _ | _
    · refine .inr ⟨.memory (m.put (i.inserted now)),
        congrArg (Prod.map id Store.memory) (MemoryStore.insert_single hfree), fun is => ?_⟩
      exact (congrArg (Prod.map id Store.memory) (MemoryStore.insert_cons_of_free hfree is)).trans
        (map_orBack Store.memory m _ _)
    · exact .inl ⟨_, fun is =>
        congrArg (Prod.map id Store.memory) (MemoryStore.insert_of_taken hfree is)⟩
  | database db =>
    rcases hrun : (Database.Transaction.insertIssue now i).run db with e | ⟨row, db'⟩
    · exact .inl ⟨_, fun is => congrArg (Prod.map id Store.database)
        (Database.perform_insert_of_run_eq_error hrun is)⟩
    · have hperform (is : List Issue) := (congrArg (Prod.map id Store.database)
        (Database.perform_insert_of_run_eq_ok hrun is)).trans (map_orBack Store.database db _ _)
      have hfirst : (database db).perform now (.insert [i]) = (.ok [row], .database db') :=
        hperform []
      obtain rfl : row = i.inserted now := by simpa using (inserts_of_insert hfirst).rows_eq
      exact .inr ⟨.database db', hfirst, hperform⟩

/-- A batch comes to the same as its issues one at a time, unless one of them is refused. -/
theorem insert_eq_insertEach (s : Store) (now : Timestamp) (is : List Issue) :
    s.perform now (.insert is) = orBack s (s.insertEach now is) := by
  induction is generalizing s with
  | nil => cases s <;> rfl
  | cons i is ih =>
    unfold insertEach
    rcases insert_cons s now i with ⟨e, hrefused⟩ | ⟨s', hfirst, hstored⟩
    · rw [hrefused is, hrefused []]
      rfl
    · rw [hstored is, hfirst, ih s']
      exact orBack_map_orBack s s' _ _

/-! ## Why a call is refused -/

/-- Whether the key has a row, or one of the issues has it. -/
def Taken (s : Store) (before : List Issue) (key : IssueKey) : Prop :=
  s.HasRow key ∨ ∃ j ∈ before, j.key = key

/-- Whether `i` is the first issue of the batch whose key has a row or stands before it. -/
def FirstTaken (s : Store) (is : List Issue) (i : Issue) : Prop :=
  ∃ before after, is = before ++ i :: after ∧ s.Taken before i.key ∧
    ∀ b j a, before = b ++ j :: a → ¬s.Taken b j.key

/-- The sizes of the payloads that the call would write; in memory there are none. -/
def sizes (now : Timestamp) : Store → StoreCall → List Nat
  | .memory _, _ => []
  | .database _, .insert is => is.map fun i => Payload.size (i.inserted now)
  | .database db, .update i => (db.rows.get? i.key).toList.map fun old =>
      Payload.size (i.updated old.createdAt old.updatedAt now)
  | .database db, .updateWithChange i user diffs => (db.rows.get? i.key).toList.flatMap fun old =>
      let row := i.updated old.createdAt old.updatedAt now
      Payload.size row ::
        if diffs.isEmpty then []
        else [Payload.size (IssueChange.mk row.key user row.updatedAt diffs)]
  | .database _, .insertChange c => [Payload.size c]
  | .database _, _ => []

theorem sizes_update (s : Store) (now : Timestamp) (i : Issue) (user : Login) :
    s.sizes now (.update i) = s.sizes now (.updateWithChange i user []) := by
  cases s with
  | memory => rfl
  | database db => cases hold : db.rows.get? i.key <;> simp [sizes, hold]

/-- Why a call that writes is refused: a key is taken, or has no row; a payload is above the limit;
or a table is missing. -/
inductive Denies (s : Store) (now : Timestamp) (c : StoreCall) : StoreError → Prop
  | taken {is : List Issue} {i : Issue} (hc : c = .insert is) (h : s.FirstTaken is i) :
    Denies s now c (.issueExists i.key)
  | missing {key : IssueKey} (hc : c.subject? = some key) (h : ¬s.HasRow key) :
    Denies s now c (.unknownIssue key)
  | oversized {n : Nat} (hn : n ∈ s.sizes now c) (h : maxPayloadBytes < n) :
    Denies s now c (DatabaseError.tooLarge maxPayloadBytes n).toStoreError
  | broken (h : ¬s.HasTables) (detail : String) : Denies s now c ⟨.other, detail⟩

/-- Whether nothing is against a call that writes: the keys that it brings are free and differ, the
issue that it is about has a row, and each payload is within the limit. -/
structure Permits (s : Store) (now : Timestamp) (c : StoreCall) : Prop where
  free : ∀ is i, c = .insert is → ¬s.FirstTaken is i
  present : ∀ key, c.subject? = some key → s.HasRow key
  fits : ∀ n ∈ s.sizes now c, n ≤ maxPayloadBytes

theorem FirstTaken.head (h : s.HasRow i.key) (is : List Issue) : s.FirstTaken (i :: is) i :=
  ⟨[], is, rfl, .inl h, by simp⟩

theorem FirstTaken.append {j : Issue} (h : s.FirstTaken is j) (more : List Issue) :
    s.FirstTaken (is ++ more) j := by
  obtain ⟨before, after, rfl, htaken, hfirst⟩ := h
  exact ⟨before, after ++ more, by simp, htaken, hfirst⟩

/-- With the first issue stored, the first key of the others that is taken is the first of all. -/
theorem firstTaken_cons_iff (hi : ¬s.HasRow i.key)
    (hs' : ∀ key, s'.HasRow key ↔ s.HasRow key ∨ i.key = key) {j : Issue} :
    s.FirstTaken (i :: is) j ↔ s'.FirstTaken is j := by
  have htaken (before : List Issue) (key : IssueKey) :
      s.Taken (i :: before) key ↔ s'.Taken before key := by
    simp only [Taken, hs', List.exists_mem_cons_iff, or_assoc]
  constructor
  · rintro ⟨before, after, his, hj, hfirst⟩
    rcases before with _ | ⟨i', before⟩
    · obtain ⟨rfl, rfl⟩ := List.cons.inj his
      simp [Taken, hi] at hj
    · obtain ⟨rfl, rfl⟩ := List.cons.inj his
      refine ⟨before, after, rfl, (htaken before j.key).1 hj, fun b k a hb => ?_⟩
      rw [← htaken]
      exact hfirst (i :: b) k a (by rw [hb]; rfl)
  · rintro ⟨before, after, rfl, hj, hfirst⟩
    refine ⟨i :: before, after, rfl, (htaken before j.key).2 hj, fun b k a hb => ?_⟩
    rcases b with _ | ⟨i', b⟩
    · obtain ⟨rfl, rfl⟩ := List.cons.inj hb
      simpa [Taken] using hi
    · obtain ⟨rfl, rfl⟩ := List.cons.inj hb
      rw [htaken]
      exact hfirst b k a rfl

end Store

/-! ## How a transaction ends -/

theorem Payload.encode_eq_error {α : Type} [JsonForm α] {a : α} {e : DatabaseError} :
    encode a = .error e ↔ maxPayloadBytes < size a ∧ e = .tooLarge maxPayloadBytes (size a) := by
  rw [← size_toUTF8_jsonText]
  by_cases hsize : (jsonText a).toUTF8.size ≤ maxPayloadBytes
  · rw [encode_eq hsize]
    exact ⟨nofun, fun h => absurd hsize (Nat.not_le.2 h.1)⟩
  · have hlarge := Nat.lt_of_not_le hsize
    rw [encode, checkSize, if_pos hlarge, error_bind]
    exact ⟨fun h => ⟨hlarge, (Except.error.inj h).symm⟩, fun h => congrArg _ h.2.symm⟩

namespace Database

open Transaction

variable {db : Database} {α β : Type}

/-- Whether the transaction fails with an error that `R` allows or succeeds as `Q` says. -/
structure Transaction.Ends (t : Transaction α) (db : Database) (R : DatabaseError → Prop)
    (Q : α → Database → Prop) : Prop where
  ok : ∀ a db', t.run db = .ok (a, db') → Q a db'
  error : ∀ e, t.run db = .error e → R e

namespace Transaction

variable {R : DatabaseError → Prop}

theorem Ends.of_run_eq_ok {t : Transaction α} {Q : α → Database → Prop} {a : α} {db' : Database}
    (h : t.run db = .ok (a, db')) (hQ : Q a db') : t.Ends db R Q where
  ok b db'' hb := by
    obtain ⟨rfl, rfl⟩ := Prod.mk.inj (Except.ok.inj (h.symm.trans hb))
    exact hQ
  error e he := by cases h.symm.trans he

theorem Ends.bind {t : Transaction α} {f : α → Transaction β} {Q : β → Database → Prop}
    (h : t.Ends db R fun a db' => (f a).Ends db' R Q) : (t >>= f).Ends db R Q where
  ok b db'' hb := by
    obtain ⟨⟨a, db'⟩, ha, hb⟩ := run_bind_eq_ok.1 hb
    exact (h.ok a db' ha).ok b db'' hb
  error e he := by
    rcases run_bind_eq_error.1 he with he | ⟨a, db', ha, he⟩
    · exact h.error e he
    · exact (h.ok a db' ha).error e he

theorem ends_pure {Q : α → Database → Prop} {a : α} (h : Q a db) :
    (pure a : Transaction α).Ends db R Q := .of_run_eq_ok rfl h

theorem ends_throw {Q : α → Database → Prop} {e : DatabaseError} (h : R e) :
    (throw e : Transaction α).Ends db R Q where
  ok _ _ ha := absurd ha run_throw_ne_ok
  error e' he := by
    cases he
    exact h

theorem ends_get {Q : Database → Database → Prop} (h : Q db db) :
    (get : Transaction Database).Ends db R Q := .of_run_eq_ok rfl h

theorem ends_modify {Q : PUnit → Database → Prop} {f : Database → Database} (h : Q () (f db)) :
    (modify f : Transaction PUnit).Ends db R Q := .of_run_eq_ok rfl h

theorem ends_lift {x : Except DatabaseError α} {Q : α → Database → Prop}
    (hok : ∀ a, x = .ok a → Q a db) (herr : ∀ e, x = .error e → R e) :
    (liftM x : Transaction α).Ends db R Q := by
  cases x with
  | ok a => exact .of_run_eq_ok rfl (hok a rfl)
  | error e =>
    refine { ok := nofun, error := fun e' he => ?_ }
    cases he
    exact herr e rfl

/-- Whether a missing table and a payload of one of the sizes that is above the limit may be the
errors. -/
structure Allows (R : DatabaseError → Prop) (db : Database) (sizes : List Nat) : Prop where
  engine : ¬(db.HasIssues ∧ db.HasChanges) → ∀ detail, R (.engine detail)
  tooLarge : ∀ n ∈ sizes, maxPayloadBytes < n → R (.tooLarge maxPayloadBytes n)

variable {sizes : List Nat}

theorem Allows.after {db' : Database} (hR : Allows R db sizes) (hchanges : db'.changes = db.changes)
    (hissues : db'.HasIssues) : Allows R db' sizes where
  engine h := hR.engine fun hs => h ⟨hissues, by rw [HasChanges, hchanges]; exact hs.2⟩
  tooLarge := hR.tooLarge

theorem ends_issueTable (hR : Allows R db sizes) {Q : KeyMap .issue IssueRow → Database → Prop}
    (h : ∀ t, db.rows = t → Q t db) : (liftM db.issueTable : Transaction _).Ends db R Q := by
  refine ends_lift (fun t ht => h t (rows_of_issueTable ht)) fun e he => ?_
  unfold issueTable at he
  split at he
  case h_1 => cases he
  case h_2 hnone =>
    cases he
    exact hR.engine (fun hs => by simp [HasIssues, hnone] at hs) _

theorem ends_changeTable (hR : Allows R db sizes) {Q : ChangeTable → Database → Prop}
    (h : ∀ t, Q t db) : (liftM db.changeTable : Transaction _).Ends db R Q := by
  refine ends_lift (fun t _ => h t) fun e he => ?_
  unfold changeTable at he
  split at he
  case h_1 => cases he
  case h_2 hnone =>
    cases he
    exact hR.engine (fun hs => by simp [HasChanges, hnone] at hs) _

theorem ends_encode (hR : Allows R db sizes) {γ : Type} [JsonForm γ] {a : γ}
    (ha : Payload.size a ∈ sizes) {Q : ByteArray → Database → Prop} (h : ∀ bytes, Q bytes db) :
    (liftM (Payload.encode a) : Transaction _).Ends db R Q := by
  refine ends_lift (fun bytes _ => h bytes) fun e he => ?_
  obtain ⟨hlarge, rfl⟩ := Payload.encode_eq_error.1 he
  exact hR.tooLarge _ ha hlarge

theorem ends_ofIssue (hR : Allows R db sizes) {i : Issue} (hi : Payload.size i ∈ sizes)
    {Q : IssueRow → Database → Prop} (h : ∀ r, Q r db) :
    (liftM (IssueRow.ofIssue i) : Transaction _).Ends db R Q := by
  refine ends_lift (fun r _ => h r) fun e he => ?_
  rcases bind_eq_error.1 he with he | ⟨bytes, -, he⟩
  · obtain ⟨hlarge, rfl⟩ := Payload.encode_eq_error.1 he
    exact hR.tooLarge _ hi hlarge
  · cases he

theorem ends_row? (hR : Allows R db sizes) {key : IssueKey}
    {Q : Option IssueRow → Database → Prop} (h : Q (db.rows.get? key) db) :
    (row? key).Ends db R Q := by
  unfold row?
  exact .bind (ends_get (.bind (ends_issueTable hR fun _ ht => ends_pure (ht ▸ h))))

theorem ends_setRow (hR : Allows R db sizes) {key : IssueKey} {r : IssueRow}
    {Q : Unit → Database → Prop} (h : ∀ db', db'.changes = db.changes → db'.HasIssues → Q () db') :
    (setRow key r).Ends db R Q := by
  unfold setRow
  exact .bind (ends_get (.bind (ends_issueTable hR fun _ _ => ends_modify (h _ rfl rfl))))

theorem ends_fileChange (hR : Allows R db sizes) {c : IssueChange} (hc : Payload.size c ∈ sizes)
    {Q : Unit → Database → Prop} (h : ∀ db', Q () db') : (fileChange c).Ends db R Q := by
  unfold fileChange
  exact .bind (ends_encode hR hc fun _ =>
    .bind (ends_get (.bind (ends_changeTable hR fun _ => ends_modify (h _)))))

theorem ends_insertIssue (hR : Allows R db sizes) {now : Timestamp} {i : Issue}
    (hsize : Payload.size (i.inserted now) ∈ sizes)
    (htaken : (db.rows.get? i.key).isSome → R (.conflict ("issue already exists: " ++ i.key.text)))
    {Q : Issue → Database → Prop} (h : ∀ row db', Q row db') : (insertIssue now i).Ends db R Q := by
  unfold insertIssue
  refine .bind (ends_row? hR ?_)
  split_ifs with hsome
  · exact .bind (ends_throw (htaken hsome))
  · exact .bind (ends_ofIssue hR hsize fun r =>
      .bind (ends_setRow hR fun db' _ _ => ends_pure (h _ db')))

theorem ends_updateIssue (hR : Allows R db sizes) {now : Timestamp} {i : Issue}
    (hsize : ∀ old, db.rows.get? i.key = some old →
      Payload.size (i.updated old.createdAt old.updatedAt now) ∈ sizes)
    (hnone : db.rows.get? i.key = none → R (.notFound i.key.text))
    {Q : Issue → Database → Prop}
    (h : ∀ old db', db.rows.get? i.key = some old → db'.changes = db.changes → db'.HasIssues →
      Q (i.updated old.createdAt old.updatedAt now) db') :
    (updateIssue now i).Ends db R Q := by
  unfold updateIssue
  refine .bind (ends_row? hR ?_)
  split
  case h_1 hold => exact ends_throw (hnone hold)
  case h_2 old hold =>
    exact .bind (ends_ofIssue hR (hsize old hold) fun r =>
      .bind (ends_setRow hR fun db' hchanges hissues =>
        ends_pure (h old db' hold hchanges hissues)))

theorem ends_updateIssueWithChange (hR : Allows R db sizes) {now : Timestamp} {i : Issue}
    {user : Login} {diffs : List FieldDiff}
    (hsizes : ∀ n ∈ Store.sizes now (.database db) (.updateWithChange i user diffs), n ∈ sizes)
    (hnone : db.rows.get? i.key = none → R (.notFound i.key.text))
    {Q : Issue → Database → Prop} (h : ∀ row db', Q row db') :
    (updateIssueWithChange now i user diffs).Ends db R Q := by
  have hold {old : IssueRow} (hold : db.rows.get? i.key = some old) {n : Nat}
      (hn : n ∈ Payload.size (i.updated old.createdAt old.updatedAt now) ::
        if diffs.isEmpty then [] else [Payload.size (IssueChange.mk i.key user
          (old.updatedAt.nextAfter now) diffs)]) : n ∈ sizes :=
    hsizes n (by simpa [Store.sizes, hold, Issue.updated] using hn)
  unfold updateIssueWithChange
  refine .bind (ends_updateIssue hR (fun old hrow => hold hrow (by simp)) hnone
    fun old db₁ hrow hchanges hissues => ?_)
  split_ifs with hdiffs
  · exact ends_pure (h _ _)
  · refine .bind (ends_fileChange (hR.after hchanges hissues) (hold hrow ?_) fun db' =>
      ends_pure (h _ db'))
    simp [hdiffs, Issue.updated]

theorem row_eq_of_run {db' : Database} {now : Timestamp} {i : Issue} {user : Login}
    {diffs : List FieldDiff} {row : Issue}
    (h : (updateIssueWithChange now i user diffs).run db = .ok (row, db')) :
    ∃ old, db.rows.get? i.key = some old ∧ row = i.updated old.createdAt old.updatedAt now := by
  obtain ⟨⟨j, db₁⟩, hj, h⟩ := run_bind_eq_ok.1 h
  obtain ⟨old, -, hold, rfl, -⟩ := run_updateIssue_eq_ok hj
  refine ⟨old, hold, ?_⟩
  split_ifs at h
  · exact (Prod.mk.inj (run_pure_eq_ok.1 h)).1.symm
  · obtain ⟨⟨u, db₂⟩, -, h⟩ := run_bind_eq_ok.1 h
    exact (Prod.mk.inj (run_pure_eq_ok.1 h)).1.symm

theorem ends_insertChange (hR : Allows R db sizes) {c : IssueChange}
    (hsize : Payload.size c ∈ sizes)
    (hnone : db.rows.get? c.issueKey = none → R (.notFound c.issueKey.text))
    {Q : Unit → Database → Prop} (h : ∀ db', Q () db') :
    (Transaction.insertChange c).Ends db R Q := by
  unfold Transaction.insertChange
  refine .bind (ends_row? hR ?_)
  split_ifs with hsome
  · exact .bind (ends_throw (hnone (Option.isNone_iff_eq_none.1 hsome)))
  · exact ends_fileChange hR hsize h

end Transaction

end Database

/-! ## Refusals -/

namespace Store

variable {s s' : Store} {now : Timestamp} {c : StoreCall} {i : Issue} {is : List Issue}
  {e : StoreError}

theorem Denies.of_insert_single (h : s.Denies now (.insert [i]) e) (is : List Issue) :
    s.Denies now (.insert (i :: is)) e := by
  cases h with
  | taken hc h =>
    obtain rfl := StoreCall.insert.inj hc
    exact .taken rfl (h.append is)
  | missing hc => cases hc
  | broken h detail => exact .broken h detail
  | oversized hn h =>
    refine .oversized ?_ h
    cases s with
    | memory => cases hn
    | database => exact List.mem_cons.2 (.inl (List.mem_singleton.1 hn))

theorem allows_denies (db : Database) (now : Timestamp) (c : StoreCall) :
    Database.Transaction.Allows (fun e => (database db).Denies now c e.toStoreError) db
      (sizes now (.database db) c) where
  engine h detail := .broken (show ¬(database db).HasTables from h) detail
  tooLarge _ hn h := .oversized hn h

theorem hasRow_memory_iff {m : MemoryStore} {key : IssueKey} :
    (memory m).HasRow key ↔ m.issues.contains key = true := by
  simp [HasRow, cell?, KeyMap.contains]

theorem not_hasRow_database {db : Database} {key : IssueKey} (h : db.rows.get? key = none) :
    ¬(database db).HasRow key := by
  simp [HasRow, cell?, h]

theorem denies_insert_single (h : (s.perform now (.insert [i])).1 = .error e) :
    s.Denies now (.insert [i]) e := by
  cases s with
  | memory m =>
    rcases hfree : m.issues.contains i.key with _ | _
    · have hstored : m.insert now [i] = _ := MemoryStore.insert_single hfree
      cases (congrArg Prod.fst hstored).symm.trans h
    · have hrefused : m.insert now [i] = _ := MemoryStore.insert_of_taken hfree []
      cases (congrArg Prod.fst hrefused).symm.trans h
      exact .taken rfl (.head (hasRow_memory_iff.2 hfree) [])
  | database db =>
    have hends : (Database.Transaction.insertIssue now i).Ends db
        (fun e => (database db).Denies now (.insert [i]) e.toStoreError) fun _ _ => True := by
      refine Database.Transaction.ends_insertIssue (allows_denies db now _) (by simp [sizes]) ?_
        fun _ _ => trivial
      refine fun hsome => .taken rfl (.head ?_ [])
      simpa [HasRow, cell?] using hsome
    rcases hrun : (Database.Transaction.insertIssue now i).run db with d | ⟨row, db'⟩
    · cases (congrArg Prod.fst (Database.perform_insert_of_run_eq_error hrun [])).symm.trans h
      exact hends.error d hrun
    · cases (congrArg Prod.fst (Database.perform_insert_of_run_eq_ok hrun [])).symm.trans h

theorem firstTaken_cons_of_insert
    (hfirst : s.perform now (.insert [i]) = (.ok [i.inserted now], s')) {j : Issue} :
    s.FirstTaken (i :: is) j ↔ s'.FirstTaken is j := by
  have hinserts := inserts_of_insert hfirst
  refine firstTaken_cons_iff (hinserts.fresh i List.mem_cons_self) fun key => ?_
  rw [hinserts.writes.hasRow_iff key]
  simp [Issue.inserted]

/-- What denies the later issues of a batch denies the batch, if the first one is stored. -/
theorem Denies.of_insert_tail (hfirst : s.perform now (.insert [i]) = (.ok [i.inserted now], s'))
    (h : s'.Denies now (.insert is) e) : s.Denies now (.insert (i :: is)) e := by
  cases h with
  | taken hc h =>
    obtain rfl := StoreCall.insert.inj hc
    exact .taken rfl ((firstTaken_cons_of_insert hfirst).2 h)
  | missing hc => cases hc
  | broken h detail =>
    refine .broken (fun hs => h ?_) detail
    rw [show s' = (s.perform now (.insert [i])).2 from (congrArg Prod.snd hfirst).symm]
    exact hs.perform now _
  | oversized hn h =>
    refine .oversized ?_ h
    cases s' with
    | memory => cases hn
    | database db' =>
      cases s with
      | memory => exact nomatch congrArg Prod.snd hfirst
      | database => exact List.mem_cons_of_mem _ hn

theorem denies_insert (h : (s.perform now (.insert is)).1 = .error e) :
    s.Denies now (.insert is) e := by
  induction is generalizing s with
  | nil => cases s <;> cases h
  | cons i is ih =>
    rcases insert_cons s now i with ⟨e', hrefused⟩ | ⟨s', hfirst, hstored⟩
    · rw [hrefused is] at h
      cases h
      exact (denies_insert_single (congrArg Prod.fst (hrefused []))).of_insert_single is
    · rw [hstored is, fst_orBack] at h
      refine (ih (s := s') ?_).of_insert_tail hfirst
      exact map_eq_error.1 h

theorem denies_updateWithChange {user : Login} {diffs : List FieldDiff}
    (h : (s.perform now (.updateWithChange i user diffs)).1 = .error e) :
    s.Denies now (.updateWithChange i user diffs) e := by
  cases s with
  | memory m =>
    rcases hold : m.issues.get? i.key with _ | old
    · have herror : (memory m).perform now (.updateWithChange i user diffs) =
          (.error (.unknownIssue i.key), memory m) := by
        simp [perform, MemoryStore.perform, MemoryStore.updateWithChange, MemoryStore.update, hold]
      cases (congrArg Prod.fst herror).symm.trans h
      exact .missing rfl (by simp [HasRow, cell?, hold])
    · simp [perform, MemoryStore.perform, MemoryStore.updateWithChange, MemoryStore.update,
        hold] at h
  | database db =>
    have hends : (Database.Transaction.updateIssueWithChange now i user diffs).Ends db
        (fun e => (database db).Denies now (.updateWithChange i user diffs) e.toStoreError)
        fun _ _ => True :=
      Database.Transaction.ends_updateIssueWithChange (allows_denies db now _) (fun _ hn => hn)
        (fun hnone => .missing rfl (not_hasRow_database hnone)) fun _ _ => trivial
    obtain ⟨d, hd, rfl⟩ := mapError_eq_error.1 h
    exact hends.error d (Database.run_eq_error_of_commit hd)

theorem denies_insertChange {change : IssueChange}
    (h : (s.perform now (.insertChange change)).1 = .error e) :
    s.Denies now (.insertChange change) e := by
  cases s with
  | memory m =>
    rcases hrow : m.issues.contains change.issueKey with _ | _
    · have herror : (memory m).perform now (.insertChange change) =
          (.error (.unknownIssue change.issueKey), memory m) := by
        simp [perform, MemoryStore.perform, MemoryStore.insertChange, hrow]
      cases (congrArg Prod.fst herror).symm.trans h
      exact .missing rfl (by simp [hasRow_memory_iff, hrow])
    · simp [perform, MemoryStore.perform, MemoryStore.insertChange, hrow] at h
  | database db =>
    have hends : (Database.Transaction.insertChange change).Ends db
        (fun e => (database db).Denies now (.insertChange change) e.toStoreError)
        fun _ _ => True :=
      Database.Transaction.ends_insertChange (allows_denies db now _) (List.mem_singleton_self _)
        (fun hnone => .missing rfl (not_hasRow_database hnone)) fun _ => trivial
    obtain ⟨d, hd, rfl⟩ := mapError_eq_error.1 h
    exact hends.error d (Database.run_eq_error_of_commit hd)

/-- What denies a change of a row with no differences denies the plain update. -/
theorem Denies.of_updateWithChange {user : Login}
    (h : s.Denies now (.updateWithChange i user []) e) : s.Denies now (.update i) e := by
  cases h with
  | taken hc => cases hc
  | missing hc h => exact .missing hc h
  | broken h detail => exact .broken h detail
  | oversized hn h =>
    rw [← sizes_update] at hn
    exact .oversized hn h

/-- A call that writes is refused for a reason. -/
theorem denies_of_error (hc : c.isReading = false) (h : (s.perform now c).1 = .error e) :
    s.Denies now c e := by
  cases c with
  | selectByKey | selectAll | selectChanges => cases hc
  | insert is => exact denies_insert h
  | update i =>
    rw [perform_update s now i ⟨""⟩] at h
    exact (denies_updateWithChange h).of_updateWithChange
  | updateWithChange i user diffs => exact denies_updateWithChange h
  | insertChange change => exact denies_insertChange h

/-! ## Why a call succeeds -/

theorem not_firstTaken_of_ok {rows : List Issue} (h : (s.perform now (.insert is)).1 = .ok rows) :
    ¬s.FirstTaken is i := by
  induction is generalizing s rows with
  | nil =>
    rintro ⟨before, after, his, -⟩
    exact absurd his.symm (by simp)
  | cons j is ih =>
    rcases insert_cons s now j with ⟨e, hrefused⟩ | ⟨s', hfirst, hstored⟩
    · rw [hrefused is] at h
      cases h
    · rw [hstored is, fst_orBack] at h
      rw [firstTaken_cons_of_insert hfirst]
      obtain ⟨rows', hrows, -⟩ := map_eq_ok.1 h
      exact ih hrows

theorem size_le_of_holds {db : Database} {row : Issue} (h : (database db).Holds row) :
    Payload.size row ≤ maxPayloadBytes := by
  obtain ⟨c, hc, hrow⟩ := h
  obtain ⟨r, -, rfl⟩ := Option.map_eq_some_iff.1 hc
  rw [← Payload.size_toUTF8_jsonText]
  exact (IssueRow.of_ofIssue_eq_ok hrow).2

theorem size_le_of_logs {db db' : Database} {change : IssueChange}
    (h : (database db).Logs (.database db') (some change)) :
    Payload.size change ≤ maxPayloadBytes := by
  obtain ⟨e, he, hentries⟩ := h.filed change rfl
  have hmem : e ∈ (database db').entries change.issueKey := by simp [hentries]
  obtain ⟨r, -, rfl⟩ := List.mem_map.1 hmem
  obtain ⟨-, -, bytes, hbytes, -⟩ := he
  rw [← Payload.size_toUTF8_jsonText]
  exact (Payload.of_encode_eq_ok hbytes).2

theorem permits_insert {rows : List Issue} (h : s.perform now (.insert is) = (.ok rows, s')) :
    s.Permits now (.insert is) where
  free is' i hc := by
    cases hc
    exact not_firstTaken_of_ok (congrArg Prod.fst h)
  present _ hc := by cases hc
  fits n hn := by
    have hinserts := inserts_of_insert h
    cases s with
    | memory => cases hn
    | database db =>
      obtain ⟨-, rfl⟩ := Prod.mk.inj h
      obtain ⟨i, hi, rfl⟩ := List.mem_map.1 hn
      refine size_le_of_holds (hinserts.writes.holds _ ?_)
      rw [hinserts.rows_eq]
      exact List.mem_map_of_mem hi

theorem permits_updateWithChange {user : Login} {diffs : List FieldDiff} {row : Issue}
    (h : s.perform now (.updateWithChange i user diffs) = (.ok row, s')) :
    s.Permits now (.updateWithChange i user diffs) where
  free _ _ hc := by cases hc
  present key hkey := by
    cases hkey
    exact (updates_of_updateWithChange h).hasRow
  fits n hn := by
    have hupdates := updates_of_updateWithChange h
    cases s with
    | memory => cases hn
    | database db =>
      obtain ⟨hrow, rfl⟩ := Prod.mk.inj h
      have hrun := Database.commit_eq_ok (Prod.ext (mapError_eq_ok.1 hrow) rfl)
      obtain ⟨old, hold, rfl⟩ := Database.Transaction.row_eq_of_run hrun
      simp only [sizes, hold, Option.toList_some, List.flatMap_singleton] at hn
      rcases List.mem_cons.1 hn with rfl | hn
      · exact size_le_of_holds (hupdates.writes.holds _ List.mem_cons_self)
      · have hlogs := hupdates.logs
        split_ifs at hn hlogs with hdiffs
        · cases hn
        · obtain rfl := List.mem_singleton.1 hn
          exact size_le_of_logs hlogs

theorem Permits.of_updateWithChange {user : Login}
    (h : s.Permits now (.updateWithChange i user [])) : s.Permits now (.update i) where
  free _ _ hc := by cases hc
  present := h.present
  fits := by
    rw [sizes_update s now i user]
    exact h.fits

theorem permits_insertChange {change : IssueChange}
    (h : s.perform now (.insertChange change) = (.ok (), s')) :
    s.Permits now (.insertChange change) where
  free _ _ hc := by cases hc
  present key hkey := by
    cases hkey
    exact (appends_of_insertChange h).hasRow
  fits n hn := by
    have happends := appends_of_insertChange h
    cases s with
    | memory => cases hn
    | database db =>
      obtain ⟨-, rfl⟩ := Prod.mk.inj h
      obtain rfl := List.mem_singleton.1 hn
      exact size_le_of_logs happends.logs

theorem permits_of_ok {a : c.Answer} (hc : c.isReading = false)
    (h : (s.perform now c).1 = .ok a) : s.Permits now c := by
  have hdone : s.perform now c = (.ok a, (s.perform now c).2) := Prod.ext h rfl
  cases c with
  | selectByKey | selectAll | selectChanges => cases hc
  | insert is => exact permits_insert hdone
  | update i =>
    rw [perform_update s now i ⟨""⟩] at hdone
    exact (permits_updateWithChange hdone).of_updateWithChange
  | updateWithChange i user diffs => exact permits_updateWithChange hdone
  | insertChange change => exact permits_insertChange hdone

/-! ## Whole or not at all -/

/-- A call that fails leaves the store as it was.  One that writes fails for a reason and succeeds
only if there is none.  A batch comes to the same as its issues one at a time, with all of it taken
back if one is refused, and a conflict names the first issue whose key is taken. -/
theorem writes_are_whole (s : Store) (now : Timestamp) :
    (∀ c e, (s.perform now c).1 = .error e →
      (s.perform now c).2 = s ∧ (c.isReading = false → s.Denies now c e)) ∧
    (∀ c a, c.isReading = false → (s.perform now c).1 = .ok a → s.Permits now c) ∧
    (∀ is, s.perform now (.insert is) = orBack s (s.insertEach now is)) ∧
    (∀ is rows s', s.perform now (.insert is) = (.ok rows, s') →
      rows = is.map (·.inserted now) ∧ s.insertEach now is = (.ok rows, s')) ∧
    ∀ is e, (s.perform now (.insert is)).1 = .error e → e.kind = .conflict →
      ∃ i, s.FirstTaken is i ∧ e = .issueExists i.key := by
  refine ⟨fun c e h => ⟨perform_of_error h, fun hc => denies_of_error hc h⟩,
    fun c a hc h => permits_of_ok hc h, fun is => insert_eq_insertEach s now is,
    fun is rows s' h => ⟨(inserts_of_insert h).rows_eq, ?_⟩, fun is e h hkind => ?_⟩
  · rw [insert_eq_insertEach] at h
    rcases heach : s.insertEach now is with ⟨e | rows', s₁⟩
    · rw [heach] at h
      cases (Prod.mk.inj h).1
    · rw [heach] at h
      exact h
  · cases denies_insert h with
    | taken hc hfirst =>
      cases hc
      exact ⟨_, hfirst, rfl⟩
    | missing hc => cases hc
    | oversized | broken => cases hkind

/-! ### An entry that does not fit -/

end Store

theorem Json.one_le_length_escapeChar (c : Char) : 1 ≤ (escapeChar c).length := by
  unfold escapeChar
  split_ifs <;> simp

theorem Json.length_le_quoted (s : String) : s.toList.length ≤ (quoted s).length := by
  have hsum : s.toList.length ≤ (s.toList.map fun c => (escapeChar c).length).sum := by
    rw [← List.length_map fun c => (escapeChar c).length]
    refine List.length_le_sum_of_one_le _ fun n hn => ?_
    obtain ⟨c, -, rfl⟩ := List.mem_map.1 hn
    exact one_le_length_escapeChar c
  simp only [quoted, List.length_append, List.length_cons, List.length_flatMap]
  omega

theorem Payload.length_user_le_size (c : IssueChange) :
    c.user.text.toList.length ≤ Payload.size c := by
  have htoken : Json.Token.string c.user.text ∈ (toJson c).tokens := by
    simp [toJson, Json.tokens, Json.record, Json.memberTokens, Json.text]
  have hquoted : (Json.quoted c.user.text).Sublist ((toJson c).tokens.flatMap Json.Token.chars) :=
    List.sublist_flatten_of_mem (List.mem_map_of_mem htoken)
  have hsum : ((toJson c).tokens.flatMap Json.Token.chars).length ≤ Payload.size c := by
    rw [← List.length_map Char.utf8Size]
    refine List.length_le_sum_of_one_le _ fun n hn => ?_
    obtain ⟨x, -, rfl⟩ := List.mem_map.1 hn
    exact x.utf8Size_pos
  exact ((Json.length_le_quoted _).trans hquoted.length_le).trans hsum

namespace Store

/-- With a login that is longer than a payload may be, an entry does not fit and so no change that
has one is permitted, whether or not its row fits. -/
theorem not_permits_of_login {db : Database} {user : Login} {diffs : List FieldDiff}
    (hrow : (database db).HasRow i.key) (hdiffs : diffs.isEmpty = false)
    (huser : maxPayloadBytes < user.text.toList.length) :
    ¬(database db).Permits now (.updateWithChange i user diffs) := by
  intro h
  obtain ⟨c, hc⟩ := Option.isSome_iff_exists.1 hrow
  obtain ⟨old, hold, rfl⟩ := Option.map_eq_some_iff.1 hc
  have hmem : Payload.size (IssueChange.mk i.key user (old.updatedAt.nextAfter now) diffs) ∈
      (database db).sizes now (.updateWithChange i user diffs) := by
    simp [sizes, hold, hdiffs, Issue.updated]
  exact Nat.not_lt.2 ((Payload.length_user_le_size _).trans (h.fits _ hmem)) huser

/-- An issue as it is first seen. -/
def sampleRow (key : String) : Issue :=
  .fresh ⟨key⟩ ⟨"repo:rule"⟩ ⟨⟨"app:a.c"⟩, ⟨"c1"⟩, ⟨"p1"⟩⟩

/-- A database with one row. -/
def sampleStored : Database where
  versions := [Database.layoutVersion]
  issues := some ((∅ : KeyMap .issue IssueRow).insert ⟨"a"⟩ (.of (sampleRow "a")))
  changes := some {}

/-- A change of the row, by any user. -/
def sampleEscalation (user : Login) : StoreCall :=
  .updateWithChange (sampleRow "a") user [⟨"severity", some "MAJOR", some "BLOCKER"⟩]

/-- A key that comes twice in a batch, a batch that is stored, and an entry that does not fit once
its row is written. -/
theorem writes_are_whole_sample :
    (memory {}).perform ⟨1000⟩ (.insert [sampleRow "a", sampleRow "b", sampleRow "a"]) =
        (.error (.issueExists ⟨"a"⟩), memory {}) ∧
      (∃ i, (memory {}).FirstTaken [sampleRow "a", sampleRow "b", sampleRow "a"] i ∧
        StoreError.issueExists ⟨"a"⟩ = .issueExists i.key) ∧
      (∃ s', (memory {}).insertEach ⟨1000⟩ [sampleRow "a", sampleRow "b"] =
        (.ok [(sampleRow "a").inserted ⟨1000⟩, (sampleRow "b").inserted ⟨1000⟩], s')) ∧
      ∃ user e, ((database sampleStored).perform ⟨2000⟩ (sampleEscalation user)).1 = .error e ∧
        ((database sampleStored).perform ⟨2000⟩ (sampleEscalation user)).2 = database sampleStored ∧
        (database sampleStored).Denies ⟨2000⟩ (sampleEscalation user) e := by
  have htwice : ((memory {}).perform ⟨1000⟩
      (.insert [sampleRow "a", sampleRow "b", sampleRow "a"])).1 = .error (.issueExists ⟨"a"⟩) := by
    decide +kernel
  have hstored : ((memory {}).perform ⟨1000⟩ (.insert [sampleRow "a", sampleRow "b"])).1 =
      .ok [(sampleRow "a").inserted ⟨1000⟩, (sampleRow "b").inserted ⟨1000⟩] := by
    decide +kernel
  obtain ⟨user, huser⟩ : ∃ user : Login, maxPayloadBytes < user.text.toList.length := by
    refine ⟨⟨.ofList (.replicate (maxPayloadBytes + 1) 'x')⟩, ?_⟩
    rw [String.toList_ofList, List.length_replicate]
    exact Nat.lt_succ_self _
  obtain ⟨hwhole, -, -, hbatch, hconflict⟩ := writes_are_whole (memory {}) ⟨1000⟩
  obtain ⟨hfails, hsucceeds, -⟩ := writes_are_whole (database sampleStored) ⟨2000⟩
  have hrow : (database sampleStored).HasRow ⟨"a"⟩ := by
    simp [HasRow, cell?, Database.rows, sampleStored]
  refine ⟨Prod.ext htwice (hwhole _ _ htwice).1, hconflict _ _ htwice rfl,
    ⟨_, (hbatch _ _ _ (Prod.ext hstored (Eq.refl (Store.perform _ _ _).2))).2⟩, user, ?_⟩
  rcases hresult : ((database sampleStored).perform ⟨2000⟩ (sampleEscalation user)).1 with e | row
  · exact ⟨e, rfl, (hfails _ _ hresult).1, (hfails _ _ hresult).2 rfl⟩
  · exact absurd (hsucceeds _ _ rfl hresult) (not_permits_of_login hrow rfl huser)

end Store

end Triage
