import Mathlib.Data.Fintype.Basic
import Triage.Proofs.Service.Coherence
import Triage.Proofs.Service.Memoryless

/-!
# Calls that take turns

Any calls of the service that write to the index go on step by step, in any order that the locks
allow, while others change the gate, the catalog and the clock.  Whoever changes, reindexes or syncs
an issue holds the lock of its key until the document is put, so nobody else changes the row before
that.  An issue that was just raised is not locked: whoever changes it before its document is put is
overtaken by that document.  Where this does not happen, only documents of rows that are there are
put, and in the end the documents of all changed and raised issues are those of their rows.
-/

namespace Triage

namespace Service

/-- A call of the service that writes to the index. -/
inductive ServiceCall
  | issue (c : IssueCall)
  | indexAll

/-- The answer to such a call: a document, or the number of issues in the index. -/
abbrev Reply := Except ServiceError (IssueDoc ⊕ Nat)

namespace ServiceCall

/-- The work of the call. -/
def script (limits : ServiceLimits) : ServiceCall → Script Reply
  | issue c => do return (← c.script limits).map .inl
  | indexAll => do return (← Service.indexAll).map .inr

/-- The key of the issue that the call changes. -/
def changes? : ServiceCall → Option IssueKey
  | issue (.change _ key _) => some key
  | _ => none

/-- Whether the call raises an issue. -/
def isCreation : ServiceCall → Bool
  | issue (.create _ _) => true
  | _ => false

/-- How the call leaves off: with nothing under way, and if it succeeds in changing an issue, with
the row of that issue stored. -/
def Finishes (c : ServiceCall) (r : Reply) (p : Progress) : Prop :=
  p.phase = .idle ∧ ∀ key a, c.changes? = some key → r = .ok a → key ∈ p.wrote

theorem attains_script (limits : ServiceLimits) (c : ServiceCall) :
    (c.script limits).Attains conduct c.Finishes {} := by
  have idle {r : Reply} {p : Progress} {c : ServiceCall} (hc : c.changes? = none)
      (hp : p.phase = .idle) : c.Finishes r p :=
    ⟨hp, fun key a hkey => by rw [hc] at hkey; cases hkey⟩
  rcases c with (⟨principal, key, m⟩ | ⟨principal, q⟩ | key) | _
  · refine Script.attains_bind.2 (attains_mutate_conduct.mono fun r p h => ⟨h.1, ?_⟩)
    rintro _ a ⟨⟩ hr
    cases r with
    | error e => cases hr
    | ok d => exact h.2 d rfl
  · exact Script.attains_bind.2 (attains_create_conduct.mono fun r p h => idle rfl h)
  · exact Script.attains_bind.2 (attains_reindex_conduct.mono fun r p h => idle rfl h)
  · exact Script.attains_bind.2 (attains_indexAll_conduct.mono fun r p h => idle rfl h)

end ServiceCall

/-- The dialogue of a call that draws no key. -/
def drawless : Dialogue Unit where
  permits _ c := c ≠ .freshKey
  answers _ _ _ _ := True

theorem handles_drawless (key : IssueKey) : Handles drawless key fun _ => True where
  catalog _ := nofun
  gate _ _ _ := nofun
  enter := nofun
  leave := nofun
  select := nofun
  selected _ := trivial
  changed _ _ := trivial
  update _ := nofun
  updated _ _ := trivial
  put _ := nofun
  get _ := nofun
  record _ := nofun

theorem syncs_drawless : Syncs drawless fun _ => True :=
  ⟨fun key => (handles_drawless key).toEdits, nofun, nofun, fun _ => nofun⟩

/-- Only a call that raises an issue draws a key. -/
theorem ServiceCall.yields_drawless (limits : ServiceLimits) {c : ServiceCall}
    (hc : c.isCreation = false) : (c.script limits).Yields drawless fun _ => True := by
  rcases c with (⟨principal, key, m⟩ | ⟨principal, q⟩ | key) | _
  · exact Script.Yields.bind ((handles_drawless key).yields_mutate limits principal m)
      fun _ _ => Script.yields_pure trivial
  · cases hc
  · exact Script.Yields.bind (handles_drawless key).yields_reindex
      fun _ _ => Script.yields_pure trivial
  · have hindex : Service.indexAll.Yields drawless fun _ => True :=
      Script.Yields.bind syncs_drawless.yields_rebuild fun _ _ =>
        Script.yields_record ((handles_drawless ⟨""⟩).record _) trivial
    exact Script.Yields.bind hindex fun _ _ => Script.yields_pure trivial

/-- Calls under way on one world. -/
structure Bench (ι : Type) where
  world : World
  calls : ι → Activity Reply

/-- What happens next: a call takes its next step, or others change gate, catalog and clock. -/
inductive Turn (ι : Type)
  | step (i : ι)
  | others (gate : Gate) (catalog : Catalog) (clock : Timestamp)

theorem script_of_next? {a : Activity Reply} {c : Call} (h : a.next? = some c) :
    ∃ next, a.script = .ask c next := by
  unfold Activity.next? at h
  cases hs : a.script with
  | done r =>
    rw [hs] at h
    cases h
  | ask c' next =>
    rw [hs] at h
    cases h
    exact ⟨next, rfl⟩

namespace Bench

variable {ι : Type}

/-- The calls before their first steps. -/
def start (limits : ServiceLimits) (w : World) (calls : ι → ServiceCall) : Bench ι :=
  ⟨w, fun i => ⟨(calls i).script limits, []⟩⟩

/-- The key of the row that the next step of the call changes. -/
def updates? (b : Bench ι) (i : ι) : Option IssueKey := (b.calls i).next?.bind b.world.updates?

/-- The key of the document that the next step of the call puts. -/
def puts? (b : Bench ι) (i : ι) : Option IssueKey := (b.calls i).next?.bind Call.puts?

/-- Whether the call has returned and did not fail. -/
def hasSucceeded (b : Bench ι) (i : ι) : Bool :=
  match (b.calls i).script with
  | .done (.ok _) => true
  | _ => false

theorem exists_done_of_hasSucceeded {b : Bench ι} {i : ι} (h : b.hasSucceeded i = true) :
    ∃ a, (b.calls i).script = .done (.ok a) := by
  unfold hasSucceeded at h
  split at h
  case h_1 a ha => exact ⟨a, ha⟩
  case h_2 => cases h

/-- Whether the next step of `i` changes the row whose document another call `j` is about to put. -/
def Overtakes (b : Bench ι) (i j : ι) : Prop :=
  j ≠ i ∧ b.updates? i ≠ none ∧ b.puts? j = b.updates? i

variable [DecidableEq ι]

instance (b : Bench ι) (i j : ι) : Decidable (b.Overtakes i j) :=
  inferInstanceAs (Decidable (j ≠ i ∧ b.updates? i ≠ none ∧ b.puts? j = b.updates? i))

/-- The bench after a turn; a call that has to wait for a lock, or has returned, stays as it is. -/
def turn (b : Bench ι) : Turn ι → Bench ι
  | .step i =>
    if (b.calls i).isWaiting b.world then b
    else match (b.calls i).step b.world none with
      | (.inl a, w) => ⟨w, Function.update b.calls i a⟩
      | (.inr _, _) => b
  | .others gate catalog clock => ⟨{ b.world with gate, catalog, clock }, b.calls⟩

/-- The bench after the turns. -/
def run (b : Bench ι) (ts : List (Turn ι)) : Bench ι := ts.foldl turn b

/-- Whether in the course of the turns no creation is overtaken: no row that it has stored is
changed before it has put the document. -/
def Orderly (calls : ι → ServiceCall) (b : Bench ι) : List (Turn ι) → Prop
  | [] => True
  | .step i :: ts =>
    (∀ j, (calls j).isCreation = true → ¬b.Overtakes i j) ∧ (b.turn (.step i)).Orderly calls ts
  | .others gate catalog clock :: ts => (b.turn (.others gate catalog clock)).Orderly calls ts

instance decidableOrderly [Fintype ι] (calls : ι → ServiceCall) :
    (b : Bench ι) → (ts : List (Turn ι)) → Decidable (b.Orderly calls ts)
  | _, [] => isTrue trivial
  | b, .step i :: ts =>
    have := decidableOrderly calls (b.turn (.step i)) ts
    inferInstanceAs (Decidable ((∀ j, (calls j).isCreation = true → ¬b.Overtakes i j) ∧
      (b.turn (.step i)).Orderly calls ts))
  | b, .others gate catalog clock :: ts =>
    decidableOrderly calls (b.turn (.others gate catalog clock)) ts

/-- The turn of a call that does not wait and has a next step. -/
theorem turn_of_ask {b : Bench ι} {i : ι} {c : Call} {next : c.Answer → Script Reply}
    (hs : (b.calls i).script = .ask c next)
    (hwait : (b.calls i).isWaiting b.world = false) :
    ∃ held, b.turn (.step i) = ⟨(b.world.perform c).2,
      Function.update b.calls i ⟨next (b.world.perform c).1, held⟩⟩ := by
  refine ⟨Activity.heldAfter (b.calls i).held c (b.world.perform c).1, ?_⟩
  have hrespond : b.world.respond none c = (some (b.world.perform c).1, (b.world.perform c).2) :=
    b.world.respond_refusal none c
  simp only [turn, hwait, Activity.step, hs, hrespond]
  rfl

/-- The turn of a call that waits, or has returned. -/
theorem turn_of_not_ask {b : Bench ι} {i : ι}
    (h : (b.calls i).isWaiting b.world = true ∨ ∃ r, (b.calls i).script = .done r) :
    b.turn (.step i) = b := by
  rcases h with hwait | ⟨r, hs⟩
  · simp only [turn, hwait, if_true]
  · simp only [turn, Activity.step, hs, ite_self]

end Bench

variable {ι : Type} {calls : ι → ServiceCall} {w₀ : World} {b : Bench ι} {g : ι → Progress}

/-- Whether the calls that go on since `w₀` have left the world in order, and each keeps to its
phases from here to its end; one that is no creation raises no issue. -/
structure Conforms (calls : ι → ServiceCall) (w₀ : World) (b : Bench ι) (g : ι → Progress) :
    Prop where
  coherent : Coherent w₀ b.world g
  attains : ∀ i, (b.calls i).script.Attains conduct (calls i).Finishes (g i)
  drawless : ∀ i, (calls i).isCreation = false →
    (b.calls i).script.Yields drawless (fun _ => True) ∧ ¬(g i).phase.IsRaising

/-- What the next step is, it may be made. -/
theorem Conforms.permits (h : Conforms calls w₀ b g) {i : ι} {c : Call}
    (hc : (b.calls i).next? = some c) : (g i).phase.Permits c := by
  have ha := h.attains i
  obtain ⟨next, hs⟩ := script_of_next? hc
  rw [hs] at ha
  exact ha.1

/-- A call that owes the document of an issue it raised puts it next. -/
theorem Conforms.next?_of_raised (h : Conforms calls w₀ b g) {i : ι} {row : Issue}
    (hg : (g i).phase = .raised row) : (b.calls i).next? = some (.index (.put row.doc)) := by
  cases hc : (b.calls i).next? with
  | none =>
    have ha := h.attains i
    unfold Activity.next? at hc
    cases hs : (b.calls i).script with
    | ask c next =>
      rw [hs] at hc
      cases hc
    | done r =>
      rw [hs] at ha
      cases hg.symm.trans ha.1
  | some c =>
    have hpermits := h.permits hc
    rw [hg] at hpermits
    cases hpermits with
    | quiet hp => exact hp.elim
    | leave hp => exact hp.elim
    | put hrow =>
      cases hrow
      rfl

/-- A document that is put next is that of a row that is there. -/
theorem Conforms.shows_of_put (h : Conforms calls w₀ b g) {i : ι} {d : IssueDoc}
    (hd : (b.calls i).next? = some (.index (.put d))) : b.world.store.Shows d.issue := by
  obtain ⟨row, hrow, rfl⟩ := (h.permits hd).row_of_put
  exact (h.coherent.fits i).shows row hrow

/-- A call that is overtaken is a creation: any other one would hold the lock of the key. -/
theorem Conforms.isCreation_of_overtakes (h : Conforms calls w₀ b g) {i j : ι}
    (hij : b.Overtakes i j) : (calls j).isCreation = true := by
  obtain ⟨hne, hupdates, hputs⟩ := hij
  obtain ⟨key, hkey⟩ := Option.ne_none_iff_exists'.1 hupdates
  rw [hkey] at hputs
  obtain ⟨c, hc, hupdates⟩ := Option.bind_eq_some_iff.1 hkey
  obtain ⟨c', hc', hputs⟩ := Option.bind_eq_some_iff.1 hputs
  obtain ⟨d, rfl, hd⟩ := Call.puts?_eq_some hputs
  obtain ⟨row, hrow, rfl⟩ := (h.permits hc').row_of_put
  refine Bool.not_eq_false _ ▸ fun hcreation => ?_
  have hraising := (h.drawless j hcreation).2
  have hlock : (g j).phase.lock? = some key := by
    cases hphase : (g j).phase with
    | raised row' => exact absurd (hphase ▸ trivial) hraising
    | knowing row' owed =>
      rw [hphase] at hrow
      cases hrow
      exact congrArg some hd
    | idle | drawn | holding | missing =>
      rw [hphase] at hrow
      cases hrow
  exact hne (h.coherent.exclusive j i key hlock ((h.permits hc).lock_of_updates hupdates))

variable [DecidableEq ι]

theorem Conforms.step (h : Conforms calls w₀ b g) {i : ι}
    (hi : ∀ j, (calls j).isCreation = true → ¬b.Overtakes i j) :
    ∃ g', Conforms calls w₀ (b.turn (.step i)) g' := by
  by_cases hwait : (b.calls i).isWaiting b.world = true
  · rw [Bench.turn_of_not_ask (.inl hwait)]
    exact ⟨g, h⟩
  cases hs : (b.calls i).script with
  | done r =>
    rw [Bench.turn_of_not_ask (.inr ⟨r, hs⟩)]
    exact ⟨g, h⟩
  | ask c next =>
    obtain ⟨held, hturn⟩ := Bench.turn_of_ask hs (eq_false_of_ne_true hwait)
    have hnext : (b.calls i).next? = some c := by
      unfold Activity.next?
      rw [hs]
    have hfree (key : IssueKey) (hc : c = .enter key) : b.world.locks.isHeld key = false := by
      subst hc
      unfold Activity.isWaiting at hwait
      rw [hnext] at hwait
      exact eq_false_of_ne_true hwait
    obtain ⟨hanswer, hmoves⟩ := moves_of_permits h.coherent.keyed (h.coherent.fits i)
      (h.permits hnext) hfree rfl
    refine ⟨Function.update g i ((g i).after c (b.world.perform c).1), ?_, fun j => ?_,
      fun j hj => ?_⟩
    · rw [hturn]
      refine h.coherent.step hmoves (fun key hc => (h.permits hnext).lock_of_updates hc) ?_
      intro j hji row hj hc
      have hovertakes : b.Overtakes i j := by
        refine ⟨hji, ?_, ?_⟩ <;>
          simp only [Bench.updates?, Bench.puts?, hnext, h.next?_of_raised hj, Option.bind_some, hc]
        · exact Option.some_ne_none _
        · rfl
      exact hi j (h.isCreation_of_overtakes hovertakes) hovertakes
    · rw [hturn]
      by_cases hji : j = i
      · subst hji
        have ha := h.attains j
        rw [hs] at ha
        simp only [Function.update_self]
        exact ha.2 _ _ ⟨hanswer, rfl⟩
      · simp only [Function.update_of_ne hji]
        exact h.attains j
    · rw [hturn]
      obtain ⟨hyields, hraising⟩ := h.drawless j hj
      by_cases hji : j = i
      · subst hji
        rw [hs] at hyields
        simp only [Function.update_self]
        exact ⟨hyields.2 _ _ trivial,
          Progress.not_isRaising_after hraising (h.permits hnext) hyields.1 _⟩
      · simp only [Function.update_of_ne hji]
        exact ⟨hyields, hraising⟩

theorem Conforms.others (h : Conforms calls w₀ b g) (gate : Gate) (catalog : Catalog)
    (clock : Timestamp) : Conforms calls w₀ (b.turn (.others gate catalog clock)) g where
  coherent :=
    ⟨h.coherent.keyed,
      fun i => ⟨(h.coherent.fits i).held, (h.coherent.fits i).shows, (h.coherent.fits i).missing⟩,
      h.coherent.exclusive, h.coherent.written, h.coherent.origin, h.coherent.awaited⟩
  attains := h.attains
  drawless := h.drawless

theorem Conforms.run (h : Conforms calls w₀ b g) {ts : List (Turn ι)} (hts : b.Orderly calls ts) :
    ∃ g', Conforms calls w₀ (b.run ts) g' := by
  induction ts generalizing b g with
  | nil => exact ⟨g, h⟩
  | cons t ts ih =>
    cases t with
    | step i =>
      obtain ⟨g', h'⟩ := h.step hts.1
      exact ih h' hts.2
    | others gate catalog clock => exact ih (h.others gate catalog clock) hts

omit [DecidableEq ι] in
/-- Where all calls have returned, the issues that were changed or raised are mirrored. -/
theorem Conforms.showsRow (h : Conforms calls w₀ b g)
    (hdone : ∀ i, ∃ r, (b.calls i).script = .done r) {key : IssueKey}
    (hkey : (∃ i a, (calls i).changes? = some key ∧ (b.calls i).script = .done (.ok a)) ∨
      b.world.store.HasRow key ∧ ¬w₀.store.HasRow key) : ∃ row, b.world.ShowsRow key row := by
  have hfinishes (i : ι) (r : Reply) (hr : (b.calls i).script = .done r) :
      (calls i).Finishes r (g i) := by
    have ha := h.attains i
    rw [hr] at ha
    exact ha
  have hwrote : ∃ i, key ∈ (g i).wrote := by
    rcases hkey with ⟨i, a, hc, hr⟩ | ⟨hrow, hnew⟩
    · exact ⟨i, (hfinishes i _ hr).2 key a hc rfl⟩
    · exact (h.coherent.origin key hrow).resolve_left hnew
  obtain ⟨i, hi⟩ := hwrote
  rcases h.coherent.written i key hi with hmirrors | ⟨j, hj⟩
  · exact hmirrors.showsRow
  · obtain ⟨r, hr⟩ := hdone j
    rw [(hfinishes j r hr).1] at hj
    cases hj

end Service

/-- Whether no document stands under a key still to be drawn, unless there is a row as well. -/
def World.KeysFresh (w : World) : Prop :=
  ∀ n, w.keysDrawn ≤ n →
    w.store.HasRow (World.nthKey n) ∨ w.index.get? (World.nthKey n) = none

namespace Service

variable {ι : Type}

theorem coherent_start {w : World} (hw : w.store.Keyed) (hkeys : w.KeysFresh) :
    Coherent w w fun _ : ι => {} where
  keyed := hw
  fits := fun i => fits_of_none rfl rfl
  exclusive := fun i j key hi => by cases hi
  written := fun i key hkey => by cases hkey
  origin := fun key => .inl
  awaited := by
    rintro key (⟨n, hn, rfl⟩ | ⟨i, hi⟩)
    · exact (hkeys n hn).imp_right fun hdoc => ⟨hdoc, fun i hi => by cases hi⟩
    · cases hi

variable [DecidableEq ι]

omit [DecidableEq ι] in
/-- A call that overtakes another one changes the row whose document that one puts next. -/
theorem Bench.Overtakes.calls {b : Bench ι} {i j : ι} (h : b.Overtakes i j) :
    ∃ x user diffs d row,
      (b.calls i).next? = some (.store (.updateWithChange x user diffs)) ∧
      (b.calls j).next? = some (.index (.put d)) ∧ x.key = d.key ∧
      (b.world.store.perform b.world.clock (.updateWithChange x user diffs)).1 = .ok row := by
  obtain ⟨-, hne, hputs⟩ := h
  obtain ⟨key, hkey⟩ := Option.ne_none_iff_exists'.1 hne
  rw [hkey] at hputs
  obtain ⟨c, hnext, hc⟩ := Option.bind_eq_some_iff.1 hkey
  obtain ⟨c', hput, hc'⟩ := Option.bind_eq_some_iff.1 hputs
  obtain ⟨x, user, diffs, row, rfl, hrow, rfl⟩ := World.updates?_eq_some hc
  obtain ⟨d, rfl, hd⟩ := Call.puts?_eq_some hc'
  have hupdates := Store.updates_of_updateWithChange (Prod.ext hrow rfl)
  exact ⟨x, user, diffs, d, row, hnext, hput, hupdates.key_eq.symm.trans hd.symm, hrow⟩

/-- A call that changes a row whose document another call is about to put, and then that other call:
the row is the new one, the document the old one. -/
theorem Bench.overtaken {b : Bench ι} {i j : ι} (hij : j ≠ i) {x row : Issue} {user : Login}
    {diffs : List FieldDiff} {d : IssueDoc}
    (hi : (b.calls i).next? = some (.store (.updateWithChange x user diffs)))
    (hj : (b.calls j).next? = some (.index (.put d)))
    (hrow : (b.world.store.perform b.world.clock (.updateWithChange x user diffs)).1 = .ok row) :
    (b.run [.step i, .step j]).world.store.Holds row ∧
      (b.run [.step i, .step j]).world.index.get? d.key = some d := by
  obtain ⟨nexti, hsi⟩ := script_of_next? hi
  obtain ⟨nextj, hsj⟩ := script_of_next? hj
  have hwait {a : Activity Reply} {w : World} {c : Call} (hc : a.next? = some c)
      (hne : ∀ key, c ≠ .enter key) : a.isWaiting w = false := by
    unfold Activity.isWaiting
    rw [hc]
    cases c with
    | enter key => exact absurd rfl (hne key)
    | store | index | catalog | permits | freshKey | leave | record => rfl
  obtain ⟨held, hturn⟩ := turn_of_ask hsi (hwait hi fun key h => by cases h)
  have hcalls : (b.turn (.step i)).calls j = b.calls j := by
    rw [hturn]
    exact Function.update_of_ne hij ..
  obtain ⟨held', hturn'⟩ := turn_of_ask (b := b.turn (.step i)) (hcalls ▸ hsj)
    (hwait (hcalls ▸ hj) fun key h => by cases h)
  have hholds : (b.turn (.step i)).world.store.Holds row := by
    rw [hturn]
    exact (Store.updates_of_updateWithChange (Prod.ext hrow rfl)).writes.holds row
      List.mem_cons_self
  change ((b.turn (.step i)).turn (.step j)).world.store.Holds row ∧
    ((b.turn (.step i)).turn (.step j)).world.index.get? d.key = some d
  rw [hturn']
  exact ⟨hholds, Index.get?_put_self _ _⟩

/-- After any turns in which no creation was overtaken, a document that is put next is that of a row
that is there, and once all calls have returned, every issue that was changed or raised has the
document of its row.  No call but a creation can be overtaken.  When one is, the document that it
puts next is older than the row. -/
theorem orderly_turns_mirror (limits : ServiceLimits) {w : World} (hw : w.store.Keyed)
    (hkeys : w.KeysFresh) (calls : ι → ServiceCall) (ts : List (Turn ι))
    (hts : (Bench.start limits w calls).Orderly calls ts) {b : Bench ι}
    (hb : (Bench.start limits w calls).run ts = b) :
    (∀ i d, (b.calls i).next? = some (.index (.put d)) → b.world.store.Shows d.issue) ∧
      ((∀ i, ∃ r, (b.calls i).script = .done r) → ∀ key,
        (∃ i a, (calls i).changes? = some key ∧ (b.calls i).script = .done (.ok a)) ∨
          b.world.store.HasRow key ∧ ¬w.store.HasRow key → ∃ row, b.world.ShowsRow key row) ∧
      ∀ i j, b.Overtakes i j → (calls j).isCreation = true ∧
        ∃ d row, (b.calls j).next? = some (.index (.put d)) ∧
          row.key = d.key ∧ row.updatedAt = d.updatedAt.nextAfter b.world.clock ∧
          (b.run [.step i, .step j]).world.store.Holds row ∧
          (b.run [.step i, .step j]).world.index.get? d.key = some d := by
  have hstart : Conforms calls w (Bench.start limits w calls) fun _ => {} :=
    ⟨coherent_start hw hkeys, fun i => (calls i).attains_script limits,
      fun i hi => ⟨ServiceCall.yields_drawless limits hi, id⟩⟩
  obtain ⟨g, hconforms⟩ := hstart.run hts
  rw [hb] at hconforms
  refine ⟨fun i d => hconforms.shows_of_put, fun hdone key => hconforms.showsRow hdone, ?_⟩
  intro i j hij
  refine ⟨hconforms.isCreation_of_overtakes hij, ?_⟩
  obtain ⟨x, user, diffs, d, row, hnext, hput, hkey, hrow⟩ := hij.calls
  obtain ⟨c, hc, hshows⟩ := hconforms.shows_of_put hput
  have hupdates := Store.updates_of_updateWithChange (Prod.ext hrow rfl)
  have hstamp : row = x.updated d.createdAt d.updatedAt b.world.clock :=
    hupdates.row_eq c d.issue (by rw [hkey]; exact hc) hshows
  refine ⟨d, row, hput, hupdates.key_eq.trans hkey, ?_, Bench.overtaken hij.1 hnext hput hrow⟩
  rw [hstamp]
  rfl

/-- A creation, and two changes of the issue that it raises. -/
def sampleCalls : Fin 3 → ServiceCall
  | 0 => .issue sampleCreation
  | 1 => .issue (sampleChange (World.nthKey 0))
  | 2 => .issue (.change ⟨⟨"gandalf"⟩, []⟩ (World.nthKey 0) (.setSeverity .info))

/-- The first change takes the lock of the issue and reads the row before its document is put, but
changes it only after that; the second change waits for the lock.  From then on the calls take
turns. -/
def sampleTurns : List (Turn (Fin 3)) :=
  List.replicate 6 (.step 0) ++ [.step 1, .step 1, .step 2, .step 0] ++
    (List.replicate 18 [.step 2, .step 1, .step 0]).flatten

theorem orderly_turns_mirror_sample : World.sample.store.Keyed ∧ World.sample.KeysFresh ∧
    (Bench.start {} World.sample sampleCalls).Orderly sampleCalls sampleTurns ∧
    ∃ b, (Bench.start {} World.sample sampleCalls).run sampleTurns = b ∧
      (∀ i, ∃ a, (b.calls i).script = .done (.ok a)) ∧
      ∃ row, b.world.ShowsRow (World.nthKey 0) row := by
  have hkeyed : World.sample.store.Keyed := fun key i hi => by cases hi
  have hkeys : World.sample.KeysFresh := fun n _ => .inr rfl
  have horderly : (Bench.start {} World.sample sampleCalls).Orderly sampleCalls sampleTurns := by
    decide +kernel
  have hsucceeded : ∀ i, ((Bench.start {} World.sample sampleCalls).run sampleTurns).hasSucceeded i
      = true := by
    decide +kernel
  have hdone (i : Fin 3) := Bench.exists_done_of_hasSucceeded (hsucceeded i)
  refine ⟨hkeyed, hkeys, horderly, _, rfl, hdone, ?_⟩
  obtain ⟨-, hmirrored, -⟩ := orderly_turns_mirror {} hkeyed hkeys sampleCalls _ horderly rfl
  obtain ⟨a, ha⟩ := hdone 1
  refine hmirrored (fun i => ?_) _ (.inl ⟨1, a, rfl, ha⟩)
  obtain ⟨a, ha⟩ := hdone i
  exact ⟨_, ha⟩

/-- The changes come between the row and the document of the creation.  All calls succeed, and the
document is older than the row. -/
theorem creation_overtaken : ∃ b, (Bench.start {} World.sample sampleCalls).run
      (List.replicate 6 (.step 0) ++ List.replicate 9 (.step 1) ++ List.replicate 9 (.step 2) ++
        List.replicate 3 (.step 0)) = b ∧
    (∀ i, ∃ a, (b.calls i).script = .done (.ok a)) ∧
    (b.world.index.get? (World.nthKey 0)).map (·.severity) = some .major ∧
    (b.world.read (.selectByKey (World.nthKey 0))).map (·.map (·.severity)) =
      .ok (some .info) := by
  refine ⟨_, rfl, fun i => Bench.exists_done_of_hasSucceeded ?_, by decide +kernel,
    by decide +kernel⟩
  revert i
  decide +kernel

end Service

end Triage
