import Triage.Proofs.Service.Rebuild

/-!
# The mirror over a whole run

A ledger notes beside the world which keys are dirty: their rows came in bulk, or the index failed
after their rows were written, and nothing has synced them since.  All other keys with rows stay
mirrored over a run of any calls, whatever is refused, and no document is without a row.
-/

namespace Triage

namespace Service

open World

/-- A world with the keys that may be out of sync. -/
structure Ledger where
  world : World
  dirty : List IssueKey := []

/-- What happens in a run: a call that writes a row and its document, a rebuilding, a batch put
straight into the store, or an exchange of gate, catalog and clock. -/
inductive Event
  | call (c : IssueCall) (refused : List (Option Refusal))
  | indexAll (refused : List (Option Refusal))
  | ingest (issues : List Issue)
  | turn (gate : Gate) (catalog : Catalog) (clock : Timestamp)

namespace IssueCall

/-- The key whose row the call writes. -/
def target (w : World) : IssueCall → IssueKey
  | change _ key _ | reindex key => key
  | create _ _ => nthKey w.keysDrawn

/-- The dirty keys after the call: a success has synced its key, and an error of the index has left
it behind if the row had been written. -/
def dirtyAfter (w : World) (dirty : List IssueKey) (c : IssueCall) :
    Outcome (Except ServiceError IssueDoc) → List IssueKey
  | .returned (.ok _) => dirty.filter (· ≠ c.target w)
  | .returned (.error e) =>
    if e.kind = .indexUnavailable ∧ c.operation?.isSome then c.target w :: dirty else dirty
  | .panicked => dirty

end IssueCall

namespace Ledger

/-- The ledger after an event. -/
def apply (limits : ServiceLimits) (l : Ledger) : Event → Ledger
  | .call c fs =>
    let (o, w) := (c.script limits).run l.world (refusals fs)
    ⟨w, c.dirtyAfter l.world l.dirty o⟩
  | .indexAll fs =>
    match indexAll.run l.world (refusals fs) with
    | (.returned (.ok _), w) => ⟨w, []⟩
    | (_, w) => ⟨w, l.dirty⟩
  | .ingest issues =>
    let (r, s) := l.world.store.perform l.world.clock (.insert issues)
    let rows : List Issue := r.toOption.getD []
    ⟨{ l.world with store := s }, rows.map (·.key) ++ l.dirty⟩
  | .turn gate catalog clock =>
    ⟨{ l.world with gate := gate, catalog := catalog, clock := clock }, l.dirty⟩

/-- The ledger after a run. -/
def run (limits : ServiceLimits) (l : Ledger) (es : List Event) : Ledger :=
  es.foldl (apply limits) l

/-- Whether all keys with rows but the dirty ones are mirrored, and every document has a row. -/
structure Balanced (l : Ledger) : Prop where
  sane : l.world.Sane
  mirrors : ∀ key ∉ l.dirty, l.world.store.HasRow key → l.world.Mirrors key
  hasRow : ∀ key, (l.world.index.get? key).isSome → l.world.store.HasRow key

end Ledger

variable {limits : ServiceLimits} {w w' : World} {c : IssueCall} {row : Issue} {s' : Store}
  {l : Ledger}

/-! ## Calls that write one row -/

/-- What it means for the store that a call has written its row. -/
structure Wrote (w : World) (c : IssueCall) (row : Issue) (s' : Store) : Prop where
  key_eq : row.key = c.target w
  shows : s'.Shows row
  keyed : w.store.Keyed → s'.Keyed
  others : ∀ key, row.key ≠ key → s'.cell? key = w.store.cell? key

theorem IssueCall.Writes.wrote (hw : w.store.Keyed) (h : c.Writes limits w row s') :
    Wrote w c row s' := by
  cases c with
  | change principal key m =>
    obtain ⟨old, hs⟩ := Changes.stored hw h
    exact ⟨hs.key_eq, (hs.writes.holds row (by simp)).shows, hs.writes.keyed,
      fun key' hk => hs.writes.others key' (by simpa using hk)⟩
  | create principal q =>
    have hs := Raises.stored h
    obtain ⟨component, rule, -, -, hrow⟩ := hs.row_eq
    exact ⟨by rw [hrow]; rfl, (hs.writes.holds row (by simp)).shows, hs.writes.keyed,
      fun key' hk => hs.writes.others key' (by simpa using hk)⟩
  | reindex key =>
    obtain ⟨rfl, c, hc, hread⟩ := h
    have hkey := Store.key_of_read hw hc hread
    exact ⟨hkey, ⟨c, hkey ▸ hc, .inr (hkey ▸ hread)⟩, id, fun _ _ => rfl⟩

theorem IssueCall.Ends.sane {r : Except ServiceError IssueDoc} (hw : w.Sane)
    (h : c.Ends limits w r w') : w'.Sane where
  keyed := by
    have hexit := h.exit
    generalize w'.store = s', w'.index = x' at hexit
    cases hexit with
    | refused => exact hw.keyed
    | diverged _ hrow => exact (hrow.wrote hw.keyed).keyed hw.keyed
    | applied hrow => exact (hrow.wrote hw.keyed).keyed hw.keyed
  unpoisoned := by
    intro key
    rw [h.locks, ← hw.unpoisoned key]
    cases c with
    | change _ key' _ => exact LockTable.isPoisoned_passed (hw.unpoisoned key') key
    | create => rfl
    | reindex key' => exact LockTable.isPoisoned_passed (hw.unpoisoned key') key

namespace Wrote

variable {key : IssueKey}

theorem untouched (h : Wrote w c row w'.store)
    (hx : w'.index = w.index ∨ w'.index = w.index.put row.doc) (hk : row.key ≠ key) :
    w.Untouched w' key := by
  refine ⟨h.others key hk, ?_⟩
  rcases hx with hx | hx <;> rw [hx]
  exact (Index.get?_put _ _ _).trans (if_neg hk)

theorem mirrors (h : Wrote w c row w'.store) (hx : w'.index = w.index.put row.doc) :
    w'.Mirrors row.key :=
  ⟨row, rfl, by rw [hx]; exact Index.get?_put_self _ _, h.shows⟩

/-- A document that is there after the write has a row, if that was so before. -/
theorem hasRow (h : Wrote w c row w'.store)
    (hx : w'.index = w.index ∨ w'.index = w.index.put row.doc)
    (hw : ∀ key, (w.index.get? key).isSome → w.store.HasRow key)
    (hdoc : (w'.index.get? key).isSome) : w'.store.HasRow key := by
  by_cases hk : row.key = key
  · exact hk ▸ h.shows.hasRow
  · have hu := h.untouched hx hk
    exact (Store.hasRow_iff_of_cell?_eq hu.1).2 (hw key (hu.2 ▸ hdoc))

end Wrote

/-! ## Events -/

namespace Ledger

theorem Balanced.call {r : Except ServiceError IssueDoc} (hb : l.Balanced)
    (h : c.Ends limits l.world r w') :
    Balanced ⟨w', c.dirtyAfter l.world l.dirty (.returned r)⟩ := by
  have hsane := h.sane hb.sane
  have kept {key : IssueKey} (hu : l.world.Untouched w' key) (hk : key ∉ l.dirty)
      (hrow : w'.store.HasRow key) : w'.Mirrors key :=
    hu.mirrors (hb.mirrors key hk ((Store.hasRow_iff_of_cell?_eq hu.1).1 hrow))
  cases r with
  | ok d =>
    obtain ⟨row, hwrites, rfl, hx⟩ := h.exit.of_ok
    have hwrote := hwrites.wrote hb.sane.keyed
    refine ⟨hsane, fun key hk hrow => ?_, fun key => hwrote.hasRow (.inr hx) hb.hasRow⟩
    by_cases heq : row.key = key
    · exact heq ▸ hwrote.mirrors hx
    · refine kept (hwrote.untouched (.inr hx) heq) (fun hd => hk ?_) hrow
      exact List.mem_filter.2 ⟨hd, by simpa [← hwrote.key_eq] using Ne.symm heq⟩
  | error e =>
    by_cases he : e.kind = .indexUnavailable
    · obtain ⟨row, hwrites, hx⟩ := h.exit.of_indexUnavailable he
      have hwrote := hwrites.wrote hb.sane.keyed
      refine ⟨hsane, fun key hk hrow => ?_, fun key => hwrote.hasRow hx hb.hasRow⟩
      by_cases heq : row.key = key
      · cases c with
        | change | create =>
          simp [IssueCall.dirtyAfter, he, IssueCall.operation?, ← hwrote.key_eq, heq] at hk
        | reindex key' =>
          simp only [IssueCall.dirtyAfter, IssueCall.operation?, Option.isSome_none,
            Bool.false_eq_true, and_false, if_false] at hk
          rcases hx with hx | hx
          · exact kept ⟨congrArg (·.cell? key) hwrites.1, by rw [hx]⟩ hk hrow
          · exact heq ▸ hwrote.mirrors hx
      · refine kept (hwrote.untouched hx heq) (fun hd => hk ?_) hrow
        unfold IssueCall.dirtyAfter
        dsimp only
        split_ifs
        · exact List.mem_cons_of_mem _ hd
        · exact hd
    · obtain ⟨hs, hx⟩ := h.exit.of_error he
      have hu key : l.world.Untouched w' key := ⟨by rw [hs], by rw [hx]⟩
      simp only [IssueCall.dirtyAfter, he, false_and, if_false]
      refine ⟨hsane, fun key hk => kept (hu key) hk, fun key hdoc => ?_⟩
      exact (Store.hasRow_iff_of_cell?_eq (hu key).1).2 (hb.hasRow key ((hu key).2 ▸ hdoc))

theorem Balanced.indexAll (hb : l.Balanced) {r : Except ServiceError Nat} {trace : List Happening}
    (h : Came Rebuilt ⟨l.world, []⟩ r ⟨w', trace⟩) :
    Balanced ⟨w', if r.toOption.isSome then [] else l.dirty⟩ := by
  have hamends : l.world.Amends w' := h.precedes.amends
  have hdocs (key : IssueKey) (hdoc : (w'.index.get? key).isSome) : w'.store.HasRow key := by
    rcases hamends.keys key with hu | hs
    · exact (hamends.hasRow key).2 (hb.hasRow key (hu.2 ▸ hdoc))
    · exact hs.hasRow hdoc
  refine ⟨hamends.sane hb.sane, fun key hk hrow => ?_, hdocs⟩
  cases r with
  | ok n =>
    obtain ⟨-, hsync, -⟩ := h.ok n rfl
    exact (hsync key).mirrors hrow
  | error e =>
    have hm := hb.mirrors key hk ((hamends.hasRow key).1 hrow)
    exact (hamends.inSync (.inl hm)).mirrors hrow

theorem Balanced.insert (hb : l.Balanced) {issues rows : List Issue} {s' : Store}
    (h : l.world.store.Inserts s' l.world.clock issues rows) :
    Balanced ⟨{ l.world with store := s' }, rows.map (·.key) ++ l.dirty⟩ := by
  refine ⟨⟨h.writes.keyed hb.sane.keyed, hb.sane.unpoisoned⟩, fun key hk hrow => ?_, fun key hdoc =>
    (h.writes.hasRow_iff key).2 (.inl (hb.hasRow key hdoc))⟩
  have hnew : ∀ i ∈ rows, i.key ≠ key := by
    rintro i hi rfl
    exact hk (List.mem_append_left _ (List.mem_map_of_mem hi))
  have hu : l.world.Untouched { l.world with store := s' } key := ⟨h.writes.others key hnew, rfl⟩
  refine hu.mirrors (hb.mirrors key (fun hd => hk (List.mem_append_right _ hd)) ?_)
  exact (Store.hasRow_iff_of_cell?_eq hu.1).1 hrow

theorem Balanced.apply (limits : ServiceLimits) (hb : l.Balanced) (e : Event) :
    (l.apply limits e).Balanced := by
  cases e with
  | call c fs =>
    obtain ⟨r, w', hrun, h⟩ := (c.attains_script limits l.world).runFrom [] fs
    have hrun : (c.script limits).run l.world (refusals fs) = (.returned r, w') := hrun
    simp only [Ledger.apply, hrun]
    exact hb.call h
  | indexAll fs =>
    obtain ⟨r, w', hrun, trace, h⟩ :=
      (attains_indexAll (s := ⟨l.world, []⟩) hb.sane).alone_of_amid.runFrom [] fs
    have hrun : Service.indexAll.run l.world (refusals fs) = (.returned r, w') := hrun
    have hbal := hb.indexAll h
    simp only [Ledger.apply, hrun]
    cases r <;> exact hbal
  | ingest issues =>
    simp only [Ledger.apply]
    rcases hr : (l.world.store.perform l.world.clock (.insert issues)).1 with e | rows
    · rw [Store.perform_of_error hr]
      exact hb
    · exact hb.insert (Store.inserts_of_insert (Prod.ext hr rfl))
  | turn gate catalog clock => exact ⟨⟨hb.sane.keyed, hb.sane.unpoisoned⟩, hb.mirrors, hb.hasRow⟩

theorem Balanced.run (limits : ServiceLimits) (hb : l.Balanced) (es : List Event) :
    (l.run limits es).Balanced := by
  induction es generalizing l with
  | nil => exact hb
  | cons e es ih => exact ih (hb.apply limits e)

end Ledger

/-! ## The invariant -/

/-- A world at the start of a run: no rows, no documents, no poisoned locks. -/
structure Start (w : World) : Prop where
  rows : ∀ key, ¬w.store.HasRow key
  docs : ∀ key, w.index.get? key = none
  unpoisoned : ∀ key, w.locks.isPoisoned key = false

theorem Start.balanced (h : Start w) : Ledger.Balanced ⟨w, []⟩ where
  sane := ⟨fun key i hi => absurd (by rw [Store.HasRow, hi]; rfl) (h.rows key), h.unpoisoned⟩
  mirrors := fun key _ hrow => absurd hrow (h.rows key)
  hasRow := fun key hdoc => by
    rw [h.docs key] at hdoc
    cases hdoc

/-- Over every run from an empty store and an empty index, all keys with rows but the dirty ones
have the documents of their rows, no other documents are there, and a call that succeeds next
answers the document of the row that then lies at its key. -/
theorem run_mirrors (limits : ServiceLimits) (hw : Start w) (es : List Event) {l : Ledger}
    (hl : Ledger.run limits ⟨w, []⟩ es = l) :
    (∀ key ∉ l.dirty, l.world.store.HasRow key → ∃ row, l.world.ShowsRow key row) ∧
      (∀ key, (l.world.index.get? key).isSome → l.world.store.HasRow key) ∧
      ∀ c fs d w', (IssueCall.script limits c).run l.world (refusals fs) = (.returned (.ok d), w') →
        ∃ row, d = row.doc ∧ w'.ShowsRow (c.target l.world) row := by
  subst hl
  have hb := hw.balanced.run limits es
  refine ⟨fun key hk hrow => (hb.mirrors key hk hrow).showsRow, hb.hasRow, fun c fs d w' hrun => ?_⟩
  obtain ⟨r, w'', hrun', h⟩ := (c.attains_script limits _).runFrom [] fs
  cases hrun.symm.trans hrun'
  obtain ⟨row, hwrites, hd, hx⟩ := h.exit.of_ok
  have hwrote := hwrites.wrote hb.sane.keyed
  refine ⟨row, hd, hwrote.key_eq, hwrote.shows, ?_, ?_⟩
  · rw [hx, ← hwrote.key_eq]
    exact Index.get?_put_self _ _
  · rw [← hwrote.key_eq]
    exact hwrote.shows.selectByKey_iff

/-- An issue is raised, the index fails when it is changed, and a rebuilding syncs it again. -/
theorem run_mirrors_sample : Start World.sample ∧ ∃ l, Ledger.run {} ⟨World.sample, []⟩
      [.call sampleCreation [], .call (sampleChange (nthKey 0))
        (List.replicate 5 none ++ [some (.index (.unavailable "down"))]), .indexAll []] = l ∧
    ∃ row, l.world.ShowsRow (nthKey 0) row := by
  have hstart : Start World.sample := ⟨World.not_hasRow_sample, fun _ => rfl, fun _ => rfl⟩
  exact ⟨hstart, _, rfl, (run_mirrors {} hstart _ rfl).1 _ (by decide) (by decide)⟩

end Service

end Triage
