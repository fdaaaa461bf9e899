import Mathlib.Data.List.Induction
import Triage.Proofs.Service.Ledger
import Triage.Proofs.Service.Recovery

/-!
# What the audit log names

A key that is out of sync has been so since one event of the run: a batch put straight into the
store, a change whose audit event names the key, or a creation whose audit event names none.  So
the keys that the log names, and those of the creations that it does not name, are all that a
reindexing has to go through.
-/

namespace Triage

/-- The events that a log in memory has kept. -/
def AuditSink.events : AuditSink → List AuditEvent
  | .kept events => events
  | .file _ | .console | .dropped => []

namespace Service

open World

/-- The world after a run. -/
def after (limits : ServiceLimits) (w : World) (es : List Event) : World :=
  (Ledger.run limits ⟨w, []⟩ es).world

/-- Whether the key has a row and no document of it. -/
def OutOfSync (w : World) (key : IssueKey) : Prop :=
  w.store.HasRow key ∧ ¬∃ row, w.ShowsRow key row

/-- The keys that the log names as diverged. -/
def divergedKeys (log : List AuditEvent) : List IssueKey :=
  log.filterMap fun e => if e.outcome = .indexDiverged then e.issueKey else none

/-- Whether the event of the run put an issue with the key straight into the store. -/
def Ingests (key : IssueKey) (_ : World) (e : Event) (_ : World) : Prop :=
  ∃ issues, e = .ingest issues ∧ ∃ i ∈ issues, i.key = key

/-- Whether the event of the run was a call that wrote the row of the key, and it is logged as
diverged under that key. -/
def Named (key : IssueKey) (w : World) (e : Event) (w' : World) : Prop :=
  ∃ c fs event, e = .call c fs ∧ c.target w = key ∧
    w'.audit = w.audit.record w.auditStamp event ∧ event.outcome = .indexDiverged ∧
    event.issueKey = some key

/-- Whether the event of the run was a creation of an issue with the key, and it is logged as
diverged under no key. -/
def Nameless (key : IssueKey) (w : World) (e : Event) (w' : World) : Prop :=
  ∃ c fs event, e = .call c fs ∧ c.target w = key ∧
    w'.audit = w.audit.record w.auditStamp event ∧ event.outcome = .indexDiverged ∧
    event.issueKey = none ∧ event.call = .mutation .createManualIssue

/-- Whether there was an event of a kind in the run, and the key has been out of sync ever since. -/
def Since (limits : ServiceLimits) (w : World) (es : List Event) (key : IssueKey)
    (P : World → Event → World → Prop) : Prop :=
  ∃ es₁ e es₂, es = es₁ ++ e :: es₂ ∧
    P (after limits w es₁) e (after limits w (es₁ ++ [e])) ∧
    ∀ es₃, es₃ <+: es₂ → OutOfSync (after limits w (es₁ ++ e :: es₃)) key

/-- Whether every batch put straight into the store is followed by a rebuilding that succeeds. -/
def Settled (limits : ServiceLimits) (w : World) (es : List Event) : Prop :=
  ∀ es₁ issues es₂, es = es₁ ++ .ingest issues :: es₂ → ∃ es₃ fs es₄ n,
    es₂ = es₃ ++ .indexAll fs :: es₄ ∧
    (indexAll.run (after limits w (es₁ ++ .ingest issues :: es₃)) (refusals fs)).1 =
      .returned (.ok n)

variable {limits : ServiceLimits} {w w' : World} {key : IssueKey} {es : List Event} {e : Event}
  {l : Ledger}

theorem OutOfSync.not_mirrors (h : OutOfSync w key) : ¬w.Mirrors key := fun hm => h.2 hm.showsRow

theorem outOfSync_of_not_mirrors (hrow : w.store.HasRow key) (h : ¬w.Mirrors key) :
    OutOfSync w key := by
  refine ⟨hrow, ?_⟩
  rintro ⟨row, hkey, hshows, hdoc, -⟩
  exact h ⟨row, hkey, hdoc, hshows⟩

theorem OutOfSync.of_untouched (h : OutOfSync w' key) (hu : w.Untouched w' key) :
    OutOfSync w key :=
  outOfSync_of_not_mirrors ((Store.hasRow_iff_of_cell?_eq hu.1).1 h.1) fun hm =>
    h.not_mirrors (hu.mirrors hm)

theorem OutOfSync.of_amends (h : OutOfSync w' key) (ha : w.Amends w') : OutOfSync w key := by
  rcases ha.keys key with hu | hs
  · exact h.of_untouched hu
  · exact absurd (hs.mirrors h.1) h.not_mirrors

/-- In memory a key is out of sync if its document is not that of the issue which lies there. -/
theorem outOfSync_memory {m : MemoryStore} {i : Issue} (hm : w.store = .memory m)
    (hi : m.issues.get? key = some i) (hdoc : w.index.get? key ≠ some i.doc) : OutOfSync w key := by
  have hcell : w.store.cell? key = some (.issue i) := by simp [hm, Store.cell?, hi]
  refine outOfSync_of_not_mirrors (by rw [Store.HasRow, hcell]; rfl) ?_
  rintro ⟨j, rfl, hj, c, hc, hshows⟩
  cases hcell.symm.trans hc
  rcases hshows with rfl | hread
  · exact hdoc hj
  · cases hread
    exact hdoc hj

theorem after_concat (limits : ServiceLimits) (w : World) (es : List Event) (e : Event) :
    after limits w (es ++ [e]) = ((Ledger.run limits ⟨w, []⟩ es).apply limits e).world := by
  rw [after, Ledger.run, List.foldl_append]
  rfl

/-- What every step keeps, and breaking off and an exchange of collaborators as well, an event
keeps. -/
theorem Ledger.apply_keeps {P : World → Prop} (hrespond : ∀ w f c, P w → P (w.respond f c).2)
    (habandon : ∀ w held, P w → P (w.abandon held))
    (hturn : ∀ (w : World) gate catalog clock, P w →
      P { w with gate := gate, catalog := catalog, clock := clock })
    (h : P l.world) (limits : ServiceLimits) (e : Event) : P (l.apply limits e).world := by
  have run {α : Type} (x : Script α) (fs : List (Option Failure)) : P (x.run l.world fs).2 :=
    x.runFrom_keeps hrespond habandon h [] fs
  cases e with
  | call c fs => exact run _ _
  | indexAll fs =>
    have hrun := run indexAll (refusals fs)
    simp only [Ledger.apply]
    split <;> simp_all
  | ingest issues => exact hrespond l.world none (.store (.insert issues)) h
  | turn gate catalog clock => exact hturn l.world gate catalog clock h

/-! ## One event -/

/-- What a call that wrote a row under a key without its document has logged. -/
theorem IssueCall.Ends.diverged {c : IssueCall} {error : ServiceError} (hw : l.world.Sane)
    (h : c.Ends limits l.world (.error error) w') (herror : error.kind = .indexUnavailable)
    (hkey : OutOfSync w' (c.target l.world)) :
    OutOfSync l.world (c.target l.world) ∨ ∃ event,
      w'.audit = l.world.audit.record l.world.auditStamp event ∧
      event.outcome = .indexDiverged ∧
      (event.issueKey = some (c.target l.world) ∨
        event.issueKey = none ∧ event.call = .mutation .createManualIssue) := by
  obtain ⟨event, hreport, haudit⟩ := h.audit
  have houtcome : AuditOutcome.ofMutationError error.kind = .indexDiverged := by
    rw [herror]
    rfl
  cases c with
  | change principal key m =>
    obtain ⟨project, rfl⟩ := hreport
    exact .inr ⟨_, haudit, houtcome, .inl rfl⟩
  | create principal q =>
    obtain ⟨project, rfl⟩ := hreport
    exact .inr ⟨_, haudit, houtcome, .inr ⟨rfl, rfl⟩⟩
  | reindex key =>
    obtain ⟨row, hrow, hx⟩ := h.exit.of_indexUnavailable herror
    have hwrote := hrow.wrote hw.keyed
    rcases hx with hx | hx
    · exact .inl (hkey.of_untouched ⟨congrArg (·.cell? key) hrow.1, by rw [hx]⟩)
    · exact absurd (hwrote.key_eq ▸ hwrote.mirrors hx) hkey.not_mirrors

theorem outOfSync_call {c : IssueCall} {fs : List (Option Refusal)} (hb : l.Balanced)
    (h : OutOfSync (l.apply limits (.call c fs)).world key) :
    OutOfSync l.world key ∨ Named key l.world (.call c fs) (l.apply limits (.call c fs)).world ∨
      Nameless key l.world (.call c fs) (l.apply limits (.call c fs)).world := by
  obtain ⟨r, w', hrun, hends⟩ := (c.attains_script limits l.world).runFrom [] fs
  have hrun : (c.script limits).run l.world (refusals fs) = (.returned r, w') := hrun
  have hworld : (l.apply limits (.call c fs)).world = w' := by simp only [Ledger.apply, hrun]
  rw [hworld] at h ⊢
  cases r with
  | ok d =>
    obtain ⟨row, hwrites, -, hx⟩ := hends.exit.of_ok
    have hwrote := hwrites.wrote hb.sane.keyed
    by_cases hk : row.key = key
    · exact absurd (hk ▸ hwrote.mirrors hx) h.not_mirrors
    · exact .inl (h.of_untouched (hwrote.untouched (.inr hx) hk))
  | error error =>
    by_cases herror : error.kind = .indexUnavailable
    · obtain ⟨row, hwrites, hx⟩ := hends.exit.of_indexUnavailable herror
      have hwrote := hwrites.wrote hb.sane.keyed
      by_cases hk : c.target l.world = key
      · rcases hends.diverged hb.sane herror (hk ▸ h) with hout | ⟨event, haudit, ho, hname⟩
        · exact .inl (hk ▸ hout)
        · rcases hname with hname | ⟨hname, hcall⟩
          · exact .inr (.inl ⟨c, fs, event, rfl, hk, haudit, ho, hk ▸ hname⟩)
          · exact .inr (.inr ⟨c, fs, event, rfl, hk, haudit, ho, hname, hcall⟩)
      · exact .inl (h.of_untouched (hwrote.untouched hx (hwrote.key_eq ▸ hk)))
    · obtain ⟨hs, hx⟩ := hends.exit.of_error herror
      exact .inl (h.of_untouched ⟨by rw [hs], by rw [hx]⟩)

theorem came_of_indexAll (limits : ServiceLimits) (hw : l.world.Sane)
    (fs : List (Option Refusal)) : ∃ r w' trace,
    indexAll.run l.world (refusals fs) = (.returned r, w') ∧
      (l.apply limits (.indexAll fs)).world = w' ∧ Came Rebuilt ⟨l.world, []⟩ r ⟨w', trace⟩ := by
  obtain ⟨r, w', hrun, trace, h⟩ :=
    (attains_indexAll (s := ⟨l.world, []⟩) hw).alone_of_amid.runFrom [] fs
  have hrun : indexAll.run l.world (refusals fs) = (.returned r, w') := hrun
  refine ⟨r, w', trace, hrun, ?_, h⟩
  simp only [Ledger.apply, hrun]
  cases r <;> rfl

theorem outOfSync_ingest {issues : List Issue}
    (h : OutOfSync (l.apply limits (.ingest issues)).world key) :
    OutOfSync l.world key ∨
      Ingests key l.world (.ingest issues) (l.apply limits (.ingest issues)).world := by
  simp only [Ledger.apply] at h ⊢
  rcases hr : (l.world.store.perform l.world.clock (.insert issues)).1 with error | rows
  · rw [Store.perform_of_error hr] at h
    exact .inl h
  · have hinserts := Store.inserts_of_insert (Prod.ext hr rfl)
    by_cases hk : ∃ i ∈ issues, i.key = key
    · exact .inr ⟨issues, rfl, hk⟩
    · refine .inl (h.of_untouched ⟨hinserts.writes.others key ?_, rfl⟩)
      rw [hinserts.rows_eq, List.forall_mem_map]
      exact fun i hi hkey => hk ⟨i, hi, hkey⟩

/-- A key that is out of sync after an event was so before, or the event is its cause. -/
theorem outOfSync_apply (hb : l.Balanced) (h : OutOfSync (l.apply limits e).world key) :
    OutOfSync l.world key ∨ Ingests key l.world e (l.apply limits e).world ∨
      Named key l.world e (l.apply limits e).world ∨
      Nameless key l.world e (l.apply limits e).world := by
  cases e with
  | call c fs => exact (outOfSync_call hb h).imp_right .inr
  | indexAll fs =>
    obtain ⟨r, w', trace, -, hworld, hcame⟩ := came_of_indexAll limits hb.sane fs
    rw [hworld] at h
    exact .inl (h.of_amends hcame.precedes.amends)
  | ingest issues => exact (outOfSync_ingest h).imp_right .inl
  | turn gate catalog clock => exact .inl (h.of_untouched ⟨rfl, rfl⟩)

/-! ## A run -/

theorem Since.concat {P : World → Event → World → Prop} (h : Since limits w es key P)
    (hout : OutOfSync (after limits w (es ++ [e])) key) :
    Since limits w (es ++ [e]) key P := by
  obtain ⟨es₁, cause, es₂, rfl, hcause, hsince⟩ := h
  refine ⟨es₁, cause, es₂ ++ [e], by simp, hcause, fun es₃ h₃ => ?_⟩
  rcases List.prefix_concat_iff.1 h₃ with rfl | h₃
  · simpa using hout
  · exact hsince es₃ h₃

theorem since_last {P : World → Event → World → Prop}
    (h : P (after limits w es) e (after limits w (es ++ [e])))
    (hout : OutOfSync (after limits w (es ++ [e])) key) : Since limits w (es ++ [e]) key P := by
  refine ⟨es, e, [], rfl, h, fun es₃ h₃ => ?_⟩
  obtain rfl := List.prefix_nil.1 h₃
  exact hout

/-- A key that is out of sync after a run has been so since its cause. -/
theorem since_of_outOfSync (hw : Start w) (h : OutOfSync (after limits w es) key) :
    Since limits w es key (Ingests key) ∨ Since limits w es key (Named key) ∨
      Since limits w es key (Nameless key) := by
  induction es using List.reverseRecOn with
  | nil => exact absurd h.1 (hw.rows key)
  | append_singleton es e ih =>
    have hb : (Ledger.run limits ⟨w, []⟩ es).Balanced := hw.balanced.run limits es
    have hout := h
    rw [after_concat] at hout
    have hcause := outOfSync_apply hb hout
    rw [← after_concat] at hcause
    rcases hcause with hbefore | hi | hn | hn
    · rcases ih hbefore with hs | hs | hs
      · exact .inl (hs.concat h)
      · exact .inr (.inl (hs.concat h))
      · exact .inr (.inr (hs.concat h))
    · exact .inl (since_last hi h)
    · exact .inr (.inl (since_last hn h))
    · exact .inr (.inr (since_last hn h))

/-- After a rebuilding that succeeds no key is out of sync. -/
theorem not_outOfSync_of_indexAll (hw : Start w) {fs : List (Option Refusal)} {n : Nat}
    (h : (indexAll.run (after limits w es) (refusals fs)).1 = .returned (.ok n)) (key : IssueKey) :
    ¬OutOfSync (after limits w (es ++ [.indexAll fs])) key := by
  intro hout
  obtain ⟨r, w', trace, hrun, hworld, hcame⟩ :=
    came_of_indexAll limits (hw.balanced.run limits es).sane fs
  rw [after_concat, hworld] at hout
  have hr : r = .ok n := by
    rw [after, hrun] at h
    exact Outcome.returned.inj h
  obtain ⟨-, hsync, -⟩ := hcame.ok n hr
  exact hout.not_mirrors ((hsync key).mirrors hout.1)

theorem not_since_ingests (hw : Start w) (hes : Settled limits w es) :
    ¬Since limits w es key (Ingests key) := by
  rintro ⟨es₁, _, es₂, rfl, ⟨issues, rfl, -⟩, hsince⟩
  obtain ⟨es₃, fs, es₄, n, rfl, hok⟩ := hes es₁ issues es₂ rfl
  have hprefix : es₃ ++ [.indexAll fs] <+: es₃ ++ .indexAll fs :: es₄ := ⟨es₄, by simp⟩
  refine not_outOfSync_of_indexAll hw hok key ?_
  simpa using hsince _ hprefix

/-! ## The log -/

/-- Whether the log has begun with the events. -/
def Logged (log : List AuditEvent) (w : World) : Prop := ∃ more, w.audit = .kept (log ++ more)

variable {log : List AuditEvent}

theorem Logged.respond (h : Logged log w) (f : Option Failure) (c : Call) :
    Logged log (w.respond f c).2 := by
  rcases w.respond_snd f c with hw | hw <;> rw [hw]
  · exact h
  · obtain ⟨more, hmore⟩ := h
    cases c with
    | record event =>
      refine ⟨more ++ [event], ?_⟩
      simp only [perform, hmore, AuditSink.record, List.append_assoc]
    | store | index | catalog | permits | freshKey | enter | leave => exact ⟨more, hmore⟩

theorem Logged.apply (h : Logged log l.world) (limits : ServiceLimits) (e : Event) :
    Logged log (l.apply limits e).world :=
  l.apply_keeps (fun _ f c h => h.respond f c) (fun _ _ h => h) (fun _ _ _ _ h => h) h limits e

theorem Logged.after (h : Logged log (after limits w es)) (es' : List Event) :
    Logged log (after limits w (es ++ es')) := by
  induction es' using List.reverseRecOn with
  | nil => simpa using h
  | append_singleton es' e ih =>
    rw [← List.append_assoc, after_concat]
    exact ih.apply limits e

/-- A key that was named is among the diverged keys of the log. -/
theorem Since.mem_divergedKeys (hlog : w.audit = .kept []) (h : Since limits w es key (Named key)) :
    key ∈ divergedKeys (after limits w es).audit.events := by
  obtain ⟨es₁, e, es₂, rfl, ⟨c, fs, event, rfl, -, haudit, houtcome, hname⟩, -⟩ := h
  have hstart : Logged [] (after limits w []) := ⟨[], hlog⟩
  obtain ⟨before, hbefore⟩ := hstart.after es₁
  rw [List.nil_append] at hbefore
  have hlogged : Logged (before ++ [event]) (after limits w (es₁ ++ [.call c fs])) :=
    ⟨[], by rw [haudit, hbefore, List.append_nil]; rfl⟩
  obtain ⟨more, hmore⟩ := hlogged.after es₂
  rw [List.append_assoc, List.singleton_append] at hmore
  rw [hmore]
  refine List.mem_filterMap.2 ⟨event, by simp [AuditSink.events], ?_⟩
  rw [if_pos houtcome, hname]

/-! ## Reindexing what is named -/

/-- The reindexing of each of the keys. -/
def reindexings (keys : List IssueKey) : List Event := keys.map fun key => .call (.reindex key) []

theorem readable_of_lists (hw : w.store.Keyed) {rows : List Issue}
    (h : w.read .selectAll = .ok rows) : w.Readable :=
  ⟨hw, fun key => Store.exists_selectByKey h key⟩

theorem mirrors_of_get? (hw : w.Readable) (h : w.index.get? key = w.rowDoc? key)
    (hrow : w.store.HasRow key) : w.Mirrors key := by
  obtain ⟨row?, hread⟩ := hw.reads key
  rcases Store.selectByKey_eq_ok hread with ⟨rfl, hnone⟩ | ⟨c, row, rfl, hc, hcell⟩
  · exact absurd hrow (Store.not_hasRow_iff.2 hnone)
  · obtain rfl := hw.key_of_read hread
    exact ⟨row, rfl, h.trans (rowDoc?_of_read hread), c, hc, .inr hcell⟩

/-- The reindexing of a key that has a row mirrors it, and what is mirrored stays so. -/
theorem reindex_apply (limits : ServiceLimits) (hb : l.Balanced) (hw : l.world.Readable)
    (k : IssueKey) :
    (l.apply limits (.call (.reindex k) [])).world.store = l.world.store ∧
      (l.apply limits (.call (.reindex k) [])).world.Readable ∧
      (l.world.store.HasRow k → (l.apply limits (.call (.reindex k) [])).world.Mirrors k) ∧
      ∀ key, l.world.Mirrors key → (l.apply limits (.call (.reindex k) [])).world.Mirrors key := by
  by_cases hrow : l.world.store.HasRow k
  · obtain ⟨d, hd⟩ := Option.isSome_iff_exists.1 ((hw.isSome_rowDoc? k).2 hrow)
    obtain ⟨row?, hread⟩ := hw.reads k
    obtain ⟨row, rfl, -⟩ := Option.map_eq_some_iff.1 ((rowDoc?_of_read hread).symm.trans hd)
    obtain ⟨r, w', hrun, -, hsync⟩ :=
      (attains_reindex_undisturbed hw hread (hb.sane.unpoisoned k)).runFrom_nil []
    have hworld : (l.apply limits (.call (.reindex k) [])).world = w' := congrArg Prod.snd hrun
    rw [hworld]
    have hmirrors : w'.Mirrors k := by
      refine mirrors_of_get? (hsync.readable hw) ?_ (hsync.store ▸ hrow)
      rw [hsync.synced k List.mem_cons_self, hsync.rowDoc?_eq]
    refine ⟨hsync.store, hsync.readable hw, fun _ => hmirrors, fun key hm => ?_⟩
    by_cases hk : key = k
    · exact hk ▸ hmirrors
    · have hu : l.world.Untouched w' key :=
        ⟨by rw [hsync.store], hsync.others key (by simpa using hk)⟩
      exact hu.mirrors hm
  · obtain ⟨r, w', hrun, hends⟩ :=
      ((IssueCall.reindex k).attains_script limits l.world).runFrom [] []
    have hworld : (l.apply limits (.call (.reindex k) [])).world = w' := congrArg Prod.snd hrun
    rw [hworld]
    have hsame : w'.store = l.world.store ∧ w'.index = l.world.index := by
      have hno {row : Issue} {s' : Store} (h : Rereads k l.world row s') : False := by
        obtain ⟨-, c, hc, -⟩ := h
        exact hrow (by rw [Store.HasRow, hc]; rfl)
      have hexit := hends.exit
      generalize w'.store = s', w'.index = x' at hexit
      cases hexit with
      | refused => exact ⟨rfl, rfl⟩
      | diverged _ h => exact (hno h).elim
      | applied h => exact (hno h).elim
    refine ⟨hsame.1, ⟨hsame.1 ▸ hw.keyed, fun key => ?_⟩, fun h => absurd h hrow, fun key hm => ?_⟩
    · rw [read_eq_of_eq hsame.1 hends.clock]
      exact hw.reads key
    · have hu : l.world.Untouched w' key := ⟨by rw [hsame.1], by rw [hsame.2]⟩
      exact hu.mirrors hm

theorem mirrors_reindexings (limits : ServiceLimits) (hb : l.Balanced) (hw : l.world.Readable)
    (keys : List IssueKey) (hrow : l.world.store.HasRow key)
    (h : l.world.Mirrors key ∨ key ∈ keys) :
    (Ledger.run limits l (reindexings keys)).world.Mirrors key := by
  induction keys generalizing l with
  | nil => exact h.resolve_right List.not_mem_nil
  | cons k keys ih =>
    obtain ⟨hstore, hreadable, hk, hkeeps⟩ := reindex_apply limits hb hw k
    refine ih (hb.apply limits _) hreadable (hstore ▸ hrow) ?_
    rcases h with hm | hmem
    · exact .inl (hkeeps key hm)
    · rcases List.mem_cons.1 hmem with rfl | hmem
      · exact .inl (hk hrow)
      · exact .inr hmem

/-! ## What the log tells -/

/-- After a run from an empty store and index in which every batch is followed by a rebuilding that
succeeds, whatever is refused, each key with a row that is out of sync has been so since a change
that is logged as diverged under this key, or since a creation that is logged as diverged under no
key.  If the rows can be listed, reindexing the keys that the log names leaves only keys of such
creations out of sync. -/
theorem divergences_named (limits : ServiceLimits) (hw : Start w) (hlog : w.audit = .kept [])
    (es : List Event) (hes : Settled limits w es) :
    (∀ key, OutOfSync (after limits w es) key →
      Since limits w es key (Named key) ∨ Since limits w es key (Nameless key)) ∧
      (∀ key, Since limits w es key (Named key) →
        key ∈ divergedKeys (after limits w es).audit.events) ∧
      ∀ rows, (after limits w es).read .selectAll = .ok rows → ∀ key,
        (after limits w es).store.HasRow key → ¬Since limits w es key (Nameless key) →
        ∃ row, (after limits w (es ++ reindexings
          (divergedKeys (after limits w es).audit.events))).ShowsRow key row := by
  have hcause {key : IssueKey} (h : OutOfSync (after limits w es) key) :
      Since limits w es key (Named key) ∨ Since limits w es key (Nameless key) :=
    (since_of_outOfSync hw h).resolve_left (not_since_ingests hw hes)
  refine ⟨fun key => hcause, fun key h => h.mem_divergedKeys hlog,
    fun rows hrows key hrow hkey => ?_⟩
  have hb := hw.balanced.run limits es
  have hmirrors : (after limits w es).Mirrors key ∨
      key ∈ divergedKeys (after limits w es).audit.events := by
    by_contra hneither
    rw [not_or] at hneither
    rcases hcause (outOfSync_of_not_mirrors hrow hneither.1) with hnamed | hnameless
    · exact hneither.2 (hnamed.mem_divergedKeys hlog)
    · exact hkey hnameless
  have hshows := mirrors_reindexings limits hb
    (readable_of_lists hb.sane.keyed hrows) _ hrow hmirrors
  rw [after, Ledger.run, List.foldl_append]
  exact hshows.showsRow

/-- A batch and a rebuilding, a change that the index fails, and a creation that it fails. -/
def sampleDivergences : List Event :=
  [.ingest [sampleIssue "a"], .indexAll [],
    .call (sampleChange ⟨"a"⟩) (List.replicate 5 none ++ [some (.index (.unavailable "down"))]),
    .call sampleCreation (List.replicate 6 none ++ [some (.index (.unavailable "down"))])]

theorem settled_sampleDivergences : Settled {} World.sample sampleDivergences := by
  intro es₁ issues es₂ h
  simp only [sampleDivergences, List.cons_eq_append_iff, List.cons.injEq, reduceCtorEq,
    List.nil_eq_append_iff, false_and, and_false, or_false, exists_false] at h
  obtain ⟨rfl, hissues, rfl⟩ := h
  cases hissues
  exact ⟨[], [], _, 1, rfl, rfl⟩

/-- The change is named, and the creation is not. -/
theorem divergences_named_sample : Start World.sample ∧ World.sample.audit = .kept [] ∧
    Settled {} World.sample sampleDivergences ∧
    divergedKeys (after {} World.sample sampleDivergences).audit.events = [⟨"a"⟩] ∧
    ∀ key ∈ [⟨"a"⟩, nthKey 0], OutOfSync (after {} World.sample sampleDivergences) key ∧
      (Since {} World.sample sampleDivergences key (Named key) ∨
        Since {} World.sample sampleDivergences key (Nameless key)) := by
  have hstart : Start World.sample := ⟨World.not_hasRow_sample, fun _ => rfl, fun _ => rfl⟩
  have hcause := (divergences_named {} hstart rfl sampleDivergences settled_sampleDivergences).1
  have hout : ∀ key ∈ [⟨"a"⟩, nthKey 0],
      OutOfSync (after {} World.sample sampleDivergences) key := by
    simp only [List.forall_mem_cons, List.not_mem_nil, false_implies, implies_true, and_true]
    exact ⟨outOfSync_memory rfl rfl (by decide), outOfSync_memory rfl rfl (by decide)⟩
  exact ⟨hstart, rfl, settled_sampleDivergences, by decide,
    fun key hkey => ⟨hout key hkey, hcause key (hout key hkey)⟩⟩

end Service

end Triage
