import Triage.Proofs.Lock
import Triage.Proofs.Service.Lasting

/-!
# Calls that keep to one key

What a call that changes an issue or reindexes it can read and write of a world is the site of its
key: the row, the changelog, the document and the lock.  In memory it is answered alike wherever
that site is the same, and it leaves the sites of all other keys as they are.  So two such calls at
different keys can change places.
-/

namespace Triage

/-! ## Sites -/

/-- What there is at a key, and what all calls ask and none of them changes. -/
@[ext]
structure Site where
  cell : Option Cell
  entries : List Entry
  doc : Option IssueDoc
  lock : KeyLock
  gate : Gate
  catalog : Catalog
  clock : Timestamp

/-- The site of a key. -/
def World.site (w : World) (key : IssueKey) : Site where
  cell := w.store.cell? key
  entries := w.store.entries key
  doc := w.index.get? key
  lock := w.locks.lock key
  gate := w.gate
  catalog := w.catalog
  clock := w.clock

namespace Call

/-- Whether the call reads and writes nothing but the site of the key. -/
def KeepsTo (key : IssueKey) : Call → Prop
  | .store (.selectByKey key') | .index (.get key') | .enter key' | .leave key' => key' = key
  | .store (.updateWithChange i _ _) => i.key = key
  | .index (.put d) => d.key = key
  | .catalog _ | .permits _ _ _ | .record _ => True
  | _ => False

/-- The dialogue that keeps to the site of the key, where all rows that are answered stand. -/
def keeping (key : IssueKey) : Dialogue Unit where
  permits _ c := c.KeepsTo key
  answers _ c r _ := c.Tells (·.key = key) r

end Call

open Call (keeping)

variable {key key' : IssueKey} {w v : World} {c : Call}

/-! ## Stores in memory -/

namespace MemoryStore

variable {m n : MemoryStore} {i : Issue}

theorem cell?_eq_iff :
    Store.cell? (.memory m) key = Store.cell? (.memory n) key ↔
      m.issues.get? key = n.issues.get? key :=
  (Option.map_injective fun _ _ h => Cell.issue.inj h).eq_iff

theorem entries_eq_iff :
    Store.entries (.memory m) key = Store.entries (.memory n) key ↔
      m.changelog key = n.changelog key :=
  (List.map_injective_iff.2 fun _ _ h => Entry.change.inj h).eq_iff

theorem issues_appendNonempty (m : MemoryStore) (c : IssueChange) :
    (m.appendNonempty c).issues = m.issues := by
  unfold appendNonempty
  split_ifs <;> rfl

theorem changelog_appendNonempty_self (m : MemoryStore) (c : IssueChange) :
    (m.appendNonempty c).changelog c.issueKey =
      m.changelog c.issueKey ++ if c.diffs.isEmpty then [] else [c] := by
  unfold appendNonempty
  split_ifs
  · exact (List.append_nil _).symm
  · rw [changelog_append, if_pos rfl]

/-- An update is the same in stores that agree at its key. -/
theorem updateWithChange_congr (hrow : m.issues.get? i.key = n.issues.get? i.key)
    (hlog : m.changelog i.key = n.changelog i.key) (now : Timestamp) (user : Login)
    (diffs : List FieldDiff) :
    (m.updateWithChange now i user diffs).1 = (n.updateWithChange now i user diffs).1 ∧
      (m.updateWithChange now i user diffs).2.issues.get? i.key =
        (n.updateWithChange now i user diffs).2.issues.get? i.key ∧
      (m.updateWithChange now i user diffs).2.changelog i.key =
        (n.updateWithChange now i user diffs).2.changelog i.key := by
  unfold updateWithChange update
  rcases hold : n.issues.get? i.key with _ | old <;> rw [hold] at hrow <;> rw [hrow] <;> dsimp only
  · exact ⟨rfl, hrow.trans hold.symm, hlog⟩
  · have hself (s : MemoryStore) (c : IssueChange) (hc : c.issueKey = i.key) :=
      hc ▸ changelog_appendNonempty_self s c
    refine ⟨rfl, ?_, ?_⟩
    · rw [issues_appendNonempty, issues_appendNonempty]
      exact (KeyMap.get?_insert_self _ _ _).trans (KeyMap.get?_insert_self _ _ _).symm
    · rw [hself _ _ rfl, hself _ _ rfl]
      exact congrArg (· ++ _) hlog

/-- A call that keeps to a key is the same in stores that agree there. -/
theorem perform_congr {c : StoreCall} (hc : (Call.store c).KeepsTo key)
    (hrow : m.issues.get? key = n.issues.get? key) (hlog : m.changelog key = n.changelog key)
    (now : Timestamp) :
    (m.perform now c).1 = (n.perform now c).1 ∧
      (m.perform now c).2.issues.get? key = (n.perform now c).2.issues.get? key ∧
      (m.perform now c).2.changelog key = (n.perform now c).2.changelog key := by
  cases c with
  | selectByKey k =>
    obtain rfl : k = key := hc
    exact ⟨congrArg Except.ok hrow, hrow, hlog⟩
  | updateWithChange i user diffs =>
    obtain rfl : i.key = key := hc
    exact updateWithChange_congr hrow hlog now user diffs
  | selectAll | insert | update | insertChange | selectChanges => exact hc.elim

end MemoryStore

/-! ## Locks -/

namespace LockTable

variable {t u : LockTable}

theorem lock_enter_self (t : LockTable) (key : IssueKey) :
    (t.enter key).2.lock key = if t.isPoisoned key then t.lock key else
      { t.lock key with handles := (t.lock key).handles + 1, held := true } := by
  have hpoisoned : (t.fetch key).isPoisoned key = t.isPoisoned key := by simp [fetch, isPoisoned]
  simp only [enter, hpoisoned]
  split_ifs
  · simp [refuse, fetch]
  · simp [take, fetch]

theorem enter_congr (h : t.lock key = u.lock key) :
    (t.enter key).1 = (u.enter key).1 ∧ (t.enter key).2.lock key = (u.enter key).2.lock key := by
  rw [enter_fst, enter_fst, lock_enter_self, lock_enter_self, isPoisoned, isPoisoned, h]
  exact ⟨rfl, rfl⟩

theorem leave_congr (h : t.lock key = u.lock key) :
    (t.leave key).lock key = (u.leave key).lock key := by
  simp only [leave, finish, release, lock_set_self, h]
  split_ifs
  · simp [lock, KeyMap.get?_erase]
  · simp

theorem abandon_congr (h : t.lock key = u.lock key) (k : IssueKey) :
    (t.abandon k).lock key = (u.abandon k).lock key := by
  simp only [abandon, lock_set]
  split_ifs with hk
  · subst hk
    rw [h]
  · exact h

theorem lock_abandon_of_ne (h : key' ≠ key) : (t.abandon key').lock key = t.lock key :=
  lock_set_of_ne h _

end LockTable

/-! ## Steps -/

namespace World

theorem site_locks (h : w.site key = v.site key) {t u : LockTable}
    (hlock : t.lock key = u.lock key) :
    World.site { w with locks := t } key = World.site { v with locks := u } key :=
  Site.ext (congrArg Site.cell h :) (congrArg Site.entries h :) (congrArg Site.doc h :) hlock
    (congrArg Site.gate h :) (congrArg Site.catalog h :) (congrArg Site.clock h :)

/-- A step that keeps to a key is the same in worlds in memory that agree there. -/
theorem perform_congr (hw : w.InMemory) (hv : v.InMemory) (h : w.site key = v.site key)
    (hc : c.KeepsTo key) :
    (w.perform c).1 = (v.perform c).1 ∧ (w.perform c).2.site key = (v.perform c).2.site key := by
  have hcell : w.store.cell? key = v.store.cell? key := congrArg Site.cell h
  have hentries : w.store.entries key = v.store.entries key := congrArg Site.entries h
  have hdoc : w.index.get? key = v.index.get? key := congrArg Site.doc h
  have hlock : w.locks.lock key = v.locks.lock key := congrArg Site.lock h
  have hgate : w.gate = v.gate := congrArg Site.gate h
  have hcatalog : w.catalog = v.catalog := congrArg Site.catalog h
  have hclock : w.clock = v.clock := congrArg Site.clock h
  cases c with
  | store c =>
    obtain ⟨m, hm⟩ := hw
    obtain ⟨n, hn⟩ := hv
    rw [hm, hn] at hcell hentries
    obtain ⟨hanswer, hrow, hlog⟩ := MemoryStore.perform_congr hc (MemoryStore.cell?_eq_iff.1 hcell)
      (MemoryStore.entries_eq_iff.1 hentries) w.clock
    simp only [World.perform, hm, hn, ← hclock]
    refine ⟨hanswer, Site.ext ?_ ?_ hdoc hlock hgate hcatalog rfl⟩
    · exact MemoryStore.cell?_eq_iff.2 hrow
    · exact MemoryStore.entries_eq_iff.2 hlog
  | index c =>
    cases c with
    | put d =>
      refine ⟨rfl, Site.ext hcell hentries ?_ hlock hgate hcatalog hclock⟩
      exact (Index.get?_put _ _ _).trans ((congrArg _ hdoc).trans (Index.get?_put _ _ _).symm)
    | get k =>
      obtain rfl : k = key := hc
      exact ⟨congrArg Except.ok hdoc, h⟩
    | remove | keys | search | listTags | facet => exact hc.elim
  | catalog c => exact ⟨by simp only [World.perform, hcatalog], h⟩
  | permits => exact ⟨by simp only [World.perform, hgate], h⟩
  | freshKey => exact hc.elim
  | enter k =>
    obtain rfl : k = key := hc
    obtain ⟨hanswer, hlock⟩ := LockTable.enter_congr hlock
    exact ⟨hanswer, site_locks h hlock⟩
  | leave k =>
    obtain rfl : k = key := hc
    exact ⟨rfl, site_locks h (LockTable.leave_congr hlock)⟩
  | record => exact ⟨rfl, h⟩

/-- A step that keeps to a key leaves the sites of all others as they are. -/
theorem perform_elsewhere (hc : c.KeepsTo key) (hne : key ≠ key') :
    (w.perform c).2.site key' = w.site key' := by
  cases c with
  | store c =>
    cases c with
    | selectByKey k =>
      have hafter : (w.perform (.store (.selectByKey k))).2 = w :=
        congrArg (fun s => { w with store := s }) (Store.perform_selectByKey _ _ _)
      rw [hafter]
    | updateWithChange i user diffs =>
      obtain rfl : i.key = key := hc
      rcases hr : (w.store.perform w.clock (.updateWithChange i user diffs)).1 with e | row
      · have hafter : (w.perform (.store (.updateWithChange i user diffs))).2 = w :=
          congrArg (fun s => { w with store := s }) (Store.perform_of_error hr)
        rw [hafter]
      · have hupdates := Store.updates_of_updateWithChange (Prod.ext hr rfl)
        have hrow : row.key ≠ key' := hupdates.key_eq ▸ hne
        refine Site.ext ?_ ?_ rfl rfl rfl rfl rfl
        · exact hupdates.writes.others key' (by simpa using hrow)
        · refine hupdates.logs.others key' fun change hchange => ?_
          split_ifs at hchange <;> cases hchange
          exact hrow
    | selectAll | insert | update | insertChange | selectChanges => exact hc.elim
  | index c =>
    cases c with
    | put d =>
      obtain rfl : d.key = key := hc
      refine Site.ext rfl rfl ?_ rfl rfl rfl rfl
      exact (Index.get?_put _ _ _).trans (if_neg hne)
    | get => rfl
    | remove | keys | search | listTags | facet => exact hc.elim
  | enter k =>
    obtain rfl : k = key := hc
    exact Site.ext rfl rfl rfl (LockTable.lock_enter_of_ne hne) rfl rfl rfl
  | leave k =>
    obtain rfl : k = key := hc
    exact Site.ext rfl rfl rfl (LockTable.lock_leave_of_ne hne) rfl rfl rfl
  | freshKey => exact hc.elim
  | catalog | permits | record => rfl

/-- A row that is answered to a step that keeps to a key stands there. -/
theorem tells_perform (hw : w.store.Keyed) (hc : c.KeepsTo key) :
    c.Tells (·.key = key) (w.perform c).1 := by
  cases c with
  | store c =>
    change (Call.store c).Tells _ (w.store.perform w.clock c).1
    cases c with
    | selectByKey k =>
      obtain rfl : k = key := hc
      rcases hr : (w.store.perform w.clock (.selectByKey k)).1 with e | _ | row
      · trivial
      · trivial
      · exact Store.key_of_selectByKey hw hr
    | updateWithChange i user diffs =>
      rcases hr : (w.store.perform w.clock (.updateWithChange i user diffs)).1 with e | row
      · trivial
      · exact (Store.updates_of_updateWithChange (Prod.ext hr rfl)).key_eq.trans hc
    | selectAll | insert | update | insertChange | selectChanges => exact hc.elim
  | index | catalog | permits | freshKey | enter | leave | record => trivial

theorem respond_congr (hw : w.InMemory) (hv : v.InMemory) (h : w.site key = v.site key)
    (hc : c.KeepsTo key) (f : Option Failure) :
    (w.respond f c).1 = (v.respond f c).1 ∧
      (w.respond f c).2.site key = (v.respond f c).2.site key := by
  obtain ⟨hanswer, hsite⟩ := perform_congr hw hv h hc
  rcases respond_uniform f c with ⟨r, hr⟩ | ⟨g, hr⟩ <;> rw [hr, hr]
  · exact ⟨rfl, h⟩
  · exact ⟨congrArg (fun a => some (g a)) hanswer, hsite⟩

theorem respond_elsewhere (hc : c.KeepsTo key) (hne : key ≠ key') (f : Option Failure) :
    (w.respond f c).2.site key' = w.site key' := by
  rcases w.respond_snd f c with hw | hw <;> rw [hw]
  exact perform_elsewhere hc hne

theorem abandon_congr (h : w.site key = v.site key) (held : List IssueKey) :
    (w.abandon held).site key = (v.abandon held).site key := by
  refine site_locks h ?_
  have hlock : w.locks.lock key = v.locks.lock key := congrArg Site.lock h
  generalize w.locks = t, v.locks = u at hlock
  induction held generalizing t u with
  | nil => exact hlock
  | cons k held ih => exact ih _ _ (LockTable.abandon_congr hlock k)

theorem abandon_elsewhere {held : List IssueKey} (h : key' ∉ held) :
    (w.abandon held).site key' = w.site key' := by
  refine Site.ext rfl rfl rfl ?_ rfl rfl rfl
  change (held.foldl LockTable.abandon w.locks).lock key' = w.locks.lock key'
  generalize w.locks = t
  induction held generalizing t with
  | nil => rfl
  | cons k held ih =>
    obtain ⟨hk, hheld⟩ := List.ne_and_not_mem_of_not_mem_cons h
    exact (ih hheld _).trans (LockTable.lock_abandon_of_ne hk.symm)

end World

/-! ## Runs -/

/-- Whether the store is in memory and all rows stand under their own keys. -/
structure World.Orderly (w : World) : Prop where
  inMemory : w.InMemory
  keyed : w.store.Keyed

theorem World.Orderly.respond (h : w.Orderly) (f : Option Failure) (c : Call) :
    (w.respond f c).2.Orderly :=
  ⟨h.inMemory.respond f c, keyed_respond h.keyed f c⟩

theorem World.Orderly.runFrom {α : Type} (h : w.Orderly) (held : List IssueKey)
    (fs : List (Option Failure)) (x : Script α) : (x.runFrom w held fs).2.Orderly :=
  x.runFrom_keeps (fun _ f c h => h.respond f c) (fun _ _ h => ⟨h.inMemory, h.keyed⟩) h held fs

theorem Activity.heldAfter_keepsTo {held : List IssueKey} (h : ∀ k ∈ held, k = key)
    (hc : c.KeepsTo key) (r : c.Answer) : ∀ k ∈ heldAfter held c r, k = key := by
  cases c with
  | enter k =>
    cases r with
    | false => exact h
    | true => exact List.forall_mem_cons.2 ⟨hc, h⟩
  | leave k => exact fun k' hk' => h k' (List.mem_of_mem_erase hk')
  | store | index | catalog | permits | freshKey | record => exact h

namespace Script

variable {α : Type} {R : α → Prop} {x : Script α} {held : List IssueKey}

/-- A script that keeps to a key ends alike and leaves the site alike in worlds that agree there. -/
theorem Yields.runFrom_congr (hx : x.Yields (keeping key) R) (hw : w.Orderly) (hv : v.Orderly)
    (h : w.site key = v.site key) (held : List IssueKey) (fs : List (Option Failure)) :
    (x.runFrom w held fs).1 = (x.runFrom v held fs).1 ∧
      (x.runFrom w held fs).2.site key = (x.runFrom v held fs).2.site key := by
  induction x generalizing w v held fs with
  | done a => exact ⟨rfl, h⟩
  | ask c next ih =>
    obtain ⟨hanswer, hsite⟩ :=
      World.respond_congr hw.inMemory hv.inMemory h hx.1 (fs.head?.getD none)
    have hw' := hw.respond (fs.head?.getD none) c
    have hv' := hv.respond (fs.head?.getD none) c
    have htells (r : c.Answer) := World.tells_respond (World.tells_perform hw.keyed hx.1)
      (f := fs.head?.getD none) (r := r)
    unfold runFrom
    -- both runs have the same answer, so they go on with one script or break off together
    generalize w.respond (fs.head?.getD none) c = p, v.respond (fs.head?.getD none) c = q at *
    obtain ⟨r, w'⟩ := p
    obtain ⟨r', v'⟩ := q
    obtain rfl : r = r' := hanswer
    cases r with
    | none => exact ⟨rfl, World.abandon_congr hsite held⟩
    | some r => exact ih r (hx.2 r () (htells r rfl)) hw' hv' hsite _ _

/-- A script that keeps to a key leaves the sites of all others as they are. -/
theorem Yields.runFrom_elsewhere (hx : x.Yields (keeping key) R) (hw : w.Orderly)
    (hheld : ∀ k ∈ held, k = key) (hne : key ≠ key') (fs : List (Option Failure)) :
    (x.runFrom w held fs).2.site key' = w.site key' := by
  induction x generalizing w held fs with
  | done a => rfl
  | ask c next ih =>
    have hsite := World.respond_elsewhere hx.1 hne (fs.head?.getD none) (w := w)
    have hw' := hw.respond (fs.head?.getD none) c
    have htells (r : c.Answer) := World.tells_respond (World.tells_perform hw.keyed hx.1)
      (f := fs.head?.getD none) (r := r)
    unfold runFrom
    generalize w.respond (fs.head?.getD none) c = p at *
    obtain ⟨_ | r, w'⟩ := p
    · exact (World.abandon_elsewhere fun hk => hne (hheld key' hk).symm).trans hsite
    · have hheld' := Activity.heldAfter_keepsTo hheld hx.1 r
      exact (ih r (hx.2 r () (htells r rfl)) hw' hheld' _).trans hsite

end Script

/-! ## Exchange -/

/-- Whether nothing that is stored, indexed or locked tells the worlds apart. -/
structure World.Matches (w v : World) : Prop where
  row : ∀ key, w.read (.selectByKey key) = v.read (.selectByKey key)
  rows : w.read .selectAll = v.read .selectAll
  log : ∀ key, w.read (.selectChanges key) = v.read (.selectChanges key)
  index : w.index = v.index
  lock : ∀ key, w.locks.lock key = v.locks.lock key

theorem World.matches_of_sites (hw : w.InMemory) (hv : v.InMemory)
    (h : ∀ key, w.site key = v.site key) : w.Matches v := by
  obtain ⟨m, hm⟩ := hw
  obtain ⟨n, hn⟩ := hv
  have hcell (key : IssueKey) : w.store.cell? key = v.store.cell? key := congrArg Site.cell (h key)
  have hentries (key : IssueKey) : w.store.entries key = v.store.entries key :=
    congrArg Site.entries (h key)
  simp only [hm, hn, MemoryStore.cell?_eq_iff, MemoryStore.entries_eq_iff] at hcell hentries
  have hissues : m.issues = n.issues := KeyMap.ext_get? hcell
  have hdocs : w.index.docs = v.index.docs := KeyMap.ext_get? fun key => congrArg Site.doc (h key)
  refine ⟨fun key => ?_, ?_, fun key => ?_, congrArg Index.mk hdocs, fun key =>
    congrArg Site.lock (h key)⟩ <;> rw [read, read, hm, hn]
  · exact congrArg Except.ok (hcell key)
  · exact congrArg (fun issues => Except.ok (KeyMap.values issues)) hissues
  · exact congrArg Except.ok (hentries key)

namespace Script

variable {α β : Type} {R : α → Prop} {S : β → Prop} {x : Script α} {y : Script β}

theorem Yields.run_elsewhere (hx : x.Yields (keeping key) R) (hw : w.Orderly) (hne : key ≠ key')
    (fs : List (Option Failure)) : (x.run w fs).2.site key' = w.site key' :=
  hx.runFrom_elsewhere hw (List.forall_mem_nil _) hne fs

/-- A script comes to the same after one that keeps to another key. -/
theorem Yields.run_after (hx : x.Yields (keeping key) R) (hy : y.Yields (keeping key') S)
    (hw : w.Orderly) (hne : key ≠ key') (fs fs' : List (Option Failure)) :
    (y.run (x.run w fs).2 fs').1 = (y.run w fs').1 ∧
      (y.run (x.run w fs).2 fs').2.site key' = (y.run w fs').2.site key' :=
  hy.runFrom_congr (hw.runFrom [] fs x) hw (hx.run_elsewhere hw hne fs) [] fs'

/-- Scripts that keep to different keys leave what matches in either order. -/
theorem Yields.matches_of_ne (hx : x.Yields (keeping key) R) (hy : y.Yields (keeping key') S)
    (hw : w.Orderly) (hne : key ≠ key') (fs fs' : List (Option Failure)) :
    (y.run (x.run w fs).2 fs').2.Matches (x.run (y.run w fs').2 fs).2 := by
  have hxw : (x.run w fs).2.Orderly := hw.runFrom [] fs x
  have hyw : (y.run w fs').2.Orderly := hw.runFrom [] fs' y
  refine World.matches_of_sites (hxw.runFrom [] fs' y).inMemory (hyw.runFrom [] fs x).inMemory
    fun k => ?_
  -- a site is left by the one script that keeps to its key, if there is one
  by_cases hk : key = k
  · subst hk
    calc
      _ = (x.run w fs).2.site key := hy.run_elsewhere hxw hne.symm fs'
      _ = _ := (hy.run_after hx hw hne.symm fs' fs).2.symm
  by_cases hk' : key' = k
  · subst hk'
    calc
      _ = (y.run w fs').2.site key' := (hx.run_after hy hw hne fs fs').2
      _ = _ := (hx.run_elsewhere hyw hne fs).symm
  · calc
      _ = (x.run w fs).2.site k := hy.run_elsewhere hxw hk' fs'
      _ = w.site k := hx.run_elsewhere hw hk fs
      _ = (y.run w fs').2.site k := (hy.run_elsewhere hw hk' fs').symm
      _ = _ := (hx.run_elsewhere hyw hk fs).symm

end Script

namespace Service

/-- The key of the issue that the call changes or reindexes. -/
def IssueCall.key? : IssueCall → Option IssueKey
  | .change _ key _ | .reindex key => some key
  | .create _ _ => none

theorem handles_keeping (key : IssueKey) : Handles (keeping key) key (·.key = key) where
  catalog _ := trivial
  gate _ _ _ := trivial
  record _ := trivial
  enter := rfl
  leave := rfl
  select := rfl
  selected h := h
  changed h hi := (Mutation.key_of_changed_eq_ok h).trans hi
  update h := h
  updated _ h := h
  put h := h
  get h := h

theorem IssueCall.yields_keeping {c : IssueCall} (h : c.key? = some key) (limits : ServiceLimits) :
    (c.script limits).Yields (keeping key) fun _ => True := by
  cases c with
  | create => cases h
  | change principal k m =>
    cases h
    exact (handles_keeping key).yields_mutate limits principal m
  | reindex k =>
    cases h
    exact (handles_keeping key).yields_reindex

/-- Two calls that change or reindex issues with different keys have the same outcomes in either
order, and leave the same rows, changelogs, documents and locks, whatever fails or breaks off in
them. -/
theorem calls_at_different_keys_commute (limits : ServiceLimits) (hw : w.Reachable)
    (hmemory : w.InMemory) {c c' : IssueCall} (hc : c.key? = some key) (hc' : c'.key? = some key')
    (hne : key ≠ key') (fs fs' : List (Option Failure)) :
    ∃ o o' w₁ w₂ v₁ v₂,
      (c.script limits).run w fs = (o, w₁) ∧ (c'.script limits).run w₁ fs' = (o', w₂) ∧
      (c'.script limits).run w fs' = (o', v₁) ∧ (c.script limits).run v₁ fs = (o, v₂) ∧
      w₂.Matches v₂ := by
  have hx := c.yields_keeping hc limits
  have hx' := c'.yields_keeping hc' limits
  have horderly : w.Orderly := ⟨hmemory, hw.keyed⟩
  have hanswer' := (hx.run_after hx' horderly hne fs fs').1
  have hanswer := (hx'.run_after hx horderly hne.symm fs' fs).1
  let w₁ := ((c.script limits).run w fs).2
  let v₁ := ((c'.script limits).run w fs').2
  exact ⟨_, _, w₁, ((c'.script limits).run w₁ fs').2, v₁, ((c.script limits).run v₁ fs).2, rfl,
    Prod.ext hanswer' rfl, rfl, Prod.ext hanswer rfl, hx.matches_of_ne hx' horderly hne fs fs'⟩

/-- The sample world after two issues have been put into the store. -/
def samplePair : World :=
  (World.sample.respond none (.store (.insert [sampleIssue "a", sampleIssue "b"]))).2

/-- One of the issues is changed, though the index fails, and the other one is reindexed. -/
theorem calls_at_different_keys_commute_sample : samplePair.Reachable ∧ samplePair.InMemory ∧
    (sampleChange ⟨"a"⟩).key? = some ⟨"a"⟩ ∧ (IssueCall.reindex ⟨"b"⟩).key? = some ⟨"b"⟩ ∧
    (⟨"a"⟩ : IssueKey) ≠ ⟨"b"⟩ ∧ ∃ o o' w₁ w₂ v₁ v₂,
      ((sampleChange ⟨"a"⟩).script {}).run samplePair
        (List.replicate 5 none ++ [some (.index (.unavailable "down"))]) = (o, w₁) ∧
      ((IssueCall.reindex ⟨"b"⟩).script {}).run w₁ [] = (o', w₂) ∧
      ((IssueCall.reindex ⟨"b"⟩).script {}).run samplePair [] = (o', v₁) ∧
      ((sampleChange ⟨"a"⟩).script {}).run v₁
        (List.replicate 5 none ++ [some (.index (.unavailable "down"))]) = (o, v₂) ∧
      w₂.Matches v₂ := by
  have hreachable : samplePair.Reachable := .respond (.start World.not_hasRow_sample) _ _
  have hne : (⟨"a"⟩ : IssueKey) ≠ ⟨"b"⟩ := by decide
  exact ⟨hreachable, ⟨_, rfl⟩, rfl, rfl, hne,
    calls_at_different_keys_commute {} hreachable ⟨_, rfl⟩ rfl rfl hne _ []⟩

end Service

end Triage
