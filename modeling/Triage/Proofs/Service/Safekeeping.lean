import Triage.Proofs.Service.Custody
import Triage.Proofs.Service.Lasting

/-!
# Rows kept safe

What a call knows of the row in its custody stays so while others go on: a row is changed only under
the lock of its key, no key is locked by two calls, and rows are inserted only where none is.  So
each step of a run does one of few things to store and index, and a change of a row is made of the
row that lies there.
-/

namespace Triage

namespace Store

variable {s s' : Store} {i : Issue}

/-- An insertion leaves the rows that are there. -/
theorem Inserts.cell?_eq {now : Timestamp} {issues rows : List Issue} {key : IssueKey}
    (h : s.Inserts s' now issues rows) (hrow : s.HasRow key) : s'.cell? key = s.cell? key := by
  refine h.writes.others key ?_
  rw [h.rows_eq, List.forall_mem_map]
  rintro i hi rfl
  exact h.fresh i hi hrow

theorem reads_iff_of_cell?_eq (h : s'.cell? i.key = s.cell? i.key) : s'.Reads i ↔ s.Reads i := by
  rw [Reads, Reads, h]

end Store

namespace World

variable {w : World}

/-- A call of the store that brings no rows in is refused, or it is performed and answered whole. -/
theorem respond_of_not_insertion {c : StoreCall} (hc : c.isInsertion = false) (w : World)
    (f : Option Failure) :
    (∃ o, w.respond f (.store c) = (o, w) ∧ ∀ r, o = some r → ∃ e, r = .error e) ∨
      w.respond f (.store c) = (some (w.perform (.store c)).1, (w.perform (.store c)).2) := by
  rcases f with _ | f
  · exact .inr rfl
  cases f with
  | store e => exact .inl ⟨_, rfl, fun r hr => ⟨e, (Option.some.inj hr).symm⟩⟩
  | panic => exact .inl ⟨none, rfl, nofun⟩
  | index | catalog => exact .inr rfl
  | empty =>
    cases c with
    | insert => cases hc
    | selectByKey | selectAll | update | updateWithChange | insertChange | selectChanges =>
      exact .inr rfl

theorem store_respond_of_isReading {c : StoreCall} (hc : c.isReading = true) (w : World)
    (f : Option Failure) : (w.respond f (.store c)).2.store = w.store := by
  rcases w.respond_snd f (.store c) with h | h <;> rw [h]
  exact Store.perform_of_isReading hc

end World

namespace Service

open World Attempt

variable {limits : ServiceLimits} {x : AnyCall} {s : Custody} {w w' : World} {c : Call}
  {held : List IssueKey} {key : IssueKey}

namespace Custody

/-! ## What a step does -/

/-- What a step of a call may do to store and index: nothing, insert rows, change the row that was
read, put the document of the row in custody, or remove a document. -/
inductive Acts (limits : ServiceLimits) (x : AnyCall) (s : Custody) (w w' : World) : Prop
  | quiet (hs : w'.store = w.store) (hx : w'.index = w.index)
  | inserts {issues rows : List Issue} (h : w.store.Inserts w'.store w.clock issues rows)
    (hx : w'.index = w.index)
  | updates {principal : Principal} {m : Mutation} {old new row : Issue} (hs : s = .read old)
    (hcall : x.change? = some (principal, old.key, m)) (hnew : m.changed limits old = .ok new)
    (h : w.store.Updates w'.store w.clock new row principal.login (old.diffs new))
    (hx : w'.index = w.index)
  | puts {row : Issue} (h : s.Vouches x row) (hs : w'.store = w.store)
    (hx : w'.index = w.index.put row.doc)
  | removes {key : IssueKey} (hs : w'.store = w.store) (hx : w'.index = w.index.remove key)

theorem Acts.of_eq {w₁ : World} (h : s.Acts limits x w w₁) (hs : w'.store = w₁.store)
    (hx : w'.index = w₁.index) : s.Acts limits x w w' := by
  cases h with
  | quiet hs' hx' => exact .quiet (hs.trans hs') (hx.trans hx')
  | inserts h hx' => exact .inserts (hs ▸ h) (hx.trans hx')
  | updates hread hcall hnew h hx' => exact .updates hread hcall hnew (hs ▸ h) (hx.trans hx')
  | puts h hs' hx' => exact .puts h (hs.trans hs') (hx.trans hx')
  | removes hs' hx' => exact .removes (hs.trans hs') (hx.trans hx')

/-- A batch of issues is inserted, or nothing happens. -/
theorem acts_insert (w : World) (issues : List Issue) :
    s.Acts limits x w (w.perform (.store (.insert issues))).2 := by
  rcases hr : (w.store.perform w.clock (.insert issues)).1 with e | rows
  · exact .quiet (Store.perform_of_error hr) rfl
  · exact .inserts (Store.inserts_of_insert (Prod.ext hr rfl)) rfl

theorem acts_perform (hc : s.Permits limits x c) (w : World) :
    s.Acts limits x w (w.perform c).2 := by
  cases c with
  | store c =>
    cases c with
    | selectByKey | selectAll | selectChanges => exact .quiet (Store.perform_of_isReading rfl) rfl
    | update | insertChange => exact hc.elim
    | insert issues => exact acts_insert w issues
    | updateWithChange i user diffs =>
      obtain ⟨old, principal, m, hs, hcall, hnew, rfl, rfl⟩ := hc
      rcases hr : (w.store.perform w.clock
        (.updateWithChange i principal.login (old.diffs i))).1 with e | row
      · exact .quiet (Store.perform_of_error hr) rfl
      · exact .updates hs hcall hnew (Store.updates_of_updateWithChange (Prod.ext hr rfl)) rfl
  | index c =>
    cases c with
    | put d =>
      obtain ⟨row, hrow, rfl⟩ := hc
      exact .puts hrow rfl rfl
    | remove key => exact .removes rfl rfl
    | keys | get | search | listTags | facet => exact .quiet rfl rfl
  | catalog | permits | freshKey | enter | leave | record => exact .quiet rfl rfl

theorem acts_respond (hc : s.Permits limits x c) (w : World) (f : Option Failure) :
    s.Acts limits x w (w.respond f c).2 := by
  rcases w.respond_snd f c with h | h <;> rw [h]
  · exact .quiet rfl rfl
  · exact acts_perform hc w

/-- A row is changed only under the lock of its key. -/
theorem Acts.cell?_eq (h : s.Acts limits x w w') (hrow : w.store.HasRow key)
    (hlock : s.lock? ≠ some key) : w'.store.cell? key = w.store.cell? key := by
  cases h with
  | quiet hs | puts _ hs | removes hs => rw [hs]
  | inserts h => exact h.cell?_eq hrow
  | updates hs _ hnew h =>
    subst hs
    refine h.writes.others key (List.forall_mem_singleton.2 fun hkey => hlock ?_)
    rw [lock?, ← hkey, h.key_eq, Mutation.key_of_changed_eq_ok hnew]

/-! ## What is known -/

/-- Whether the row is one that a call of the kind has stored: a changed one. -/
def IsChanged (limits : ServiceLimits) (x : AnyCall) (row : Issue) : Prop :=
  ∃ principal m old new createdAt previous now, x.change? = some (principal, old.key, m) ∧
    m.changed limits old = .ok new ∧ row = new.updated createdAt previous now

/-- Whether the row is one that was raised for a request. -/
def IsRaised (row : Issue) : Prop :=
  ∃ (q : ManualIssueRequest) (key : IssueKey) (component : Component) (rule : Rule)
    (reporter : Login) (now : Timestamp),
    row = (q.issue key component rule reporter).inserted now

/-- Whether what is known is so: the lock is held, a row that was read is what is read there now,
and a row that was written is what lies there. -/
structure Sound (limits : ServiceLimits) (x : AnyCall) (st : Store) (held : List IssueKey)
    (s : Custody) : Prop where
  held : ∀ key, s.lock? = some key → key ∈ held
  read : ∀ row, s = .read row → st.Reads row
  written : ∀ row, s = .written row → st.Holds row ∧ IsChanged limits x row
  raised : ∀ row, s = .raised row → IsRaised row

theorem sound_idle (limits : ServiceLimits) (x : AnyCall) (st : Store) (held : List IssueKey) :
    Custody.idle.Sound limits x st held := by
  constructor <;> rintro _ ⟨⟩

theorem sound_holding {st : Store} (h : key ∈ held) : (holding key).Sound limits x st held := by
  constructor <;> rintro _ ⟨⟩
  exact h

theorem sound_read {st : Store} {row : Issue} (hkey : row.key ∈ held) (h : st.Reads row) :
    (Custody.read row).Sound limits x st held := by
  constructor <;> rintro _ ⟨⟩
  · exact hkey
  · exact h

theorem sound_written {st : Store} {row : Issue} (hkey : row.key ∈ held) (h : st.Holds row)
    (hrow : IsChanged limits x row) : (written row).Sound limits x st held := by
  constructor <;> rintro _ ⟨⟩
  · exact hkey
  · exact ⟨h, hrow⟩

theorem sound_raised {st : Store} {row : Issue} (h : IsRaised row) :
    (raised row).Sound limits x st held := by
  constructor <;> rintro _ ⟨⟩
  exact h

/-- What is known stays so as long as the rows of the keys stay whose locks are held. -/
theorem Sound.frame {st st' : Store} (h : s.Sound limits x st held)
    (hcell : ∀ key ∈ held, st.HasRow key → st'.cell? key = st.cell? key) :
    s.Sound limits x st' held := by
  refine ⟨h.held, fun row hrow => ?_, fun row hrow => ?_, h.raised⟩
  · have hreads := h.read row hrow
    have hkey := h.held row.key (by rw [hrow, lock?])
    exact (Store.reads_iff_of_cell?_eq (hcell _ hkey hreads.hasRow)).2 hreads
  · obtain ⟨hholds, hchanged⟩ := h.written row hrow
    have hkey := h.held row.key (by rw [hrow, lock?])
    exact ⟨(Store.holds_iff_of_cell?_eq (hcell _ hkey hholds.shows.hasRow)).2 hholds, hchanged⟩

theorem Sound.of_store_eq {st st' : Store} (h : s.Sound limits x st held) (hs : st' = st) :
    s.Sound limits x st' held :=
  hs ▸ h

/-! ## The call's own steps -/

theorem Sound.selectByKey (h : s.Sound limits x w.store held) (hw : w.store.Keyed)
    (hc : s.Permits limits x (.store (.selectByKey key))) {f : Option Failure}
    {r : Except StoreError (Option Issue)}
    (hr : (w.respond f (.store (.selectByKey key))).1 = some r) :
    (Call.store (.selectByKey key)).Addresses r ∧
      (s.after (.store (.selectByKey key)) r).Sound limits x w.store held := by
  have htells : (Call.store (.selectByKey key)).Tells
      (fun row => w.store.Reads row ∧ row.key = key) r := by
    refine tells_respond ?_ hr
    change (Call.store (.selectByKey key)).Tells _ (w.store.perform w.clock (.selectByKey key)).1
    rcases hread : (w.store.perform w.clock (.selectByKey key)).1 with e | _ | row
    · trivial
    · trivial
    · exact ⟨Store.reads_of_selectByKey hw hread, Store.key_of_selectByKey hw hread⟩
  rcases r with e | _ | row
  · exact ⟨trivial, h⟩
  · exact ⟨trivial, h⟩
  · obtain ⟨hreads, hkey⟩ := htells
    refine ⟨hkey, ?_⟩
    cases s with
    | holding key' =>
      obtain rfl : key' = key := hc key' rfl
      exact sound_read (hkey ▸ h.held key' rfl) hreads
    | idle | read | written | raised => exact h

theorem Sound.insert {issues : List Issue} (hc : s.Permits limits x (.store (.insert issues)))
    {f : Option Failure} {r : Except StoreError (List Issue)}
    (hr : (w.respond f (.store (.insert issues))).1 = some r) (st : Store) :
    (s.after (.store (.insert issues)) r).Sound limits x st held := by
  obtain ⟨rfl, q, key, component, rule, reporter, rfl⟩ := hc
  have htells : (Call.store (.insert [q.issue key component rule reporter])).Tells IsRaised r := by
    refine tells_respond ?_ hr
    change (Call.store (.insert _)).Tells _ (w.store.perform w.clock (.insert _)).1
    rcases hinsert : (w.store.perform w.clock
      (.insert [q.issue key component rule reporter])).1 with e | rows
    · trivial
    · have hrows := (Store.inserts_of_insert (Prod.ext hinsert rfl)).rows_eq
      intro row hrow
      rw [hrows, List.map_singleton, List.mem_singleton] at hrow
      exact ⟨q, key, component, rule, reporter, w.clock, hrow⟩
  rcases r with e | _ | ⟨row, rows⟩
  · exact sound_idle limits x st held
  · exact sound_idle limits x st held
  · exact sound_raised (htells row List.mem_cons_self)

theorem Sound.updateWithChange {i : Issue} {user : Login} {diffs : List FieldDiff}
    (h : s.Sound limits x w.store held)
    (hc : s.Permits limits x (.store (.updateWithChange i user diffs))) {f : Option Failure}
    {r : Except StoreError Issue}
    (hr : (w.respond f (.store (.updateWithChange i user diffs))).1 = some r) :
    (Call.store (.updateWithChange i user diffs)).Addresses r ∧
      (s.after (.store (.updateWithChange i user diffs)) r).Sound limits x
        (w.respond f (.store (.updateWithChange i user diffs))).2.store held := by
  obtain ⟨old, principal, m, rfl, hcall, hnew, rfl, rfl⟩ := hc
  rcases respond_of_not_insertion (c := .updateWithChange i principal.login (old.diffs i)) rfl w f
    with ⟨o, ho, hrefused⟩ | ho <;> rw [ho] at hr ⊢
  · obtain ⟨e, rfl⟩ := hrefused r hr
    exact ⟨trivial, h⟩
  · obtain rfl := Option.some.inj hr
    change (Call.store (.updateWithChange _ _ _)).Addresses
      (w.store.perform w.clock (.updateWithChange i principal.login (old.diffs i))).1 ∧
      (Custody.after _ (.store (.updateWithChange _ _ _))
        (w.store.perform w.clock (.updateWithChange i principal.login (old.diffs i))).1).Sound
        limits x (w.store.perform w.clock (.updateWithChange i principal.login (old.diffs i))).2
        held
    rcases hstored : (w.store.perform w.clock
      (.updateWithChange i principal.login (old.diffs i))).1 with e | row
    · rw [Store.perform_of_error hstored]
      exact ⟨trivial, h⟩
    · have hupd := Store.updates_of_updateWithChange (Prod.ext hstored rfl)
      have hkey : i.key = old.key := Mutation.key_of_changed_eq_ok hnew
      obtain ⟨cell, hcell, hread⟩ := h.read old rfl
      have hrow := hupd.row_eq cell old (hkey ▸ hcell) (.inr hread)
      refine ⟨hupd.key_eq, sound_written ?_ (hupd.writes.holds row List.mem_cons_self)
        ⟨principal, m, old, i, _, _, _, hcall, hnew, hrow⟩⟩
      rw [hupd.key_eq, hkey]
      exact h.held old.key rfl

/-- A step that the call may take leaves it with what is so. -/
theorem Sound.respond (h : s.Sound limits x w.store held) (hw : w.store.Keyed)
    (hc : s.Permits limits x c) {f : Option Failure} {r : c.Answer}
    (hr : (w.respond f c).1 = some r) : c.Addresses r ∧
      (s.after c r).Sound limits x (w.respond f c).2.store (Activity.heldAfter held c r) := by
  have hstays (hs : (w.perform c).2.store = w.store) : (w.respond f c).2.store = w.store := by
    rcases w.respond_snd f c with heq | heq <;> rw [heq]
    exact hs
  cases c with
  | store c =>
    cases c with
    | selectByKey key =>
      rw [store_respond_of_isReading rfl]
      exact h.selectByKey hw hc hr
    | selectAll =>
      rw [store_respond_of_isReading rfl]
      exact ⟨trivial, h⟩
    | selectChanges key =>
      rw [store_respond_of_isReading rfl]
      exact ⟨trivial, h⟩
    | update | insertChange => exact hc.elim
    | insert issues => exact ⟨trivial, .insert hc hr _⟩
    | updateWithChange i user diffs => exact h.updateWithChange hc hr
  | index | catalog | permits | freshKey | record => exact ⟨trivial, h.of_store_eq (hstays rfl)⟩
  | leave key => exact ⟨trivial, sound_idle ..⟩
  | enter key =>
    cases r with
    | true => exact ⟨trivial, sound_holding List.mem_cons_self⟩
    | false => exact ⟨trivial, h.of_store_eq (hstays rfl)⟩

end Custody

/-! ## Runs -/

namespace Shift

variable {ι : Type} {b : Shift ι} {calls : ι → AnyCall}

/-- Whether every call under way keeps to the row in its custody, and what it knows of it is so. -/
structure Safe (limits : ServiceLimits) (calls : ι → AnyCall) (b : Shift ι) : Prop where
  secure : b.Secure
  keyed : b.world.store.Keyed
  knows : ∀ i, ∃ s : Custody,
    (b.calls i).script.Attains (custody limits (calls i)) (fun _ _ => True) s ∧
      s.Sound limits (calls i) b.world.store (b.calls i).held

theorem Safe.start (hw : Start w) (hfree : ∀ key, w.locks.isHeld key = false)
    (limits : ServiceLimits) (calls : ι → AnyCall) :
    (Shift.start limits w calls).Safe limits calls where
  secure := .start hfree hw.unpoisoned limits calls
  keyed := (World.Reachable.start hw.rows).keyed
  knows i := ⟨.idle, (calls i).attains_script_custody limits, Custody.sound_idle ..⟩

/-- A call that is about to take a step may take it. -/
theorem Safe.permits (h : b.Safe limits calls) {i : ι} (hnext : (b.calls i).next? = some c) :
    ∃ s : Custody, s.Permits limits (calls i) c ∧
      s.Sound limits (calls i) b.world.store (b.calls i).held := by
  obtain ⟨s, hattains, hsound⟩ := h.knows i
  rw [Activity.next?] at hnext
  cases hs : (b.calls i).script with
  | done r => simp [hs] at hnext
  | ask c' next =>
    rw [hs] at hattains hnext
    cases hnext
    exact ⟨s, hattains.1, hsound⟩

/-- The steps of one call leave what the others know. -/
theorem Safe.others (h : b.Safe limits calls) {i j : ι} (hij : j ≠ i) {s : Custody}
    (hsound : s.Sound limits (calls i) b.world.store (b.calls i).held)
    (hacts : s.Acts limits (calls i) b.world w) : ∃ s' : Custody,
      (b.calls j).script.Attains (custody limits (calls j)) (fun _ _ => True) s' ∧
        s'.Sound limits (calls j) w.store (b.calls j).held := by
  obtain ⟨s', hattains, hsound'⟩ := h.knows j
  refine ⟨s', hattains, hsound'.frame fun key hkey hrow => hacts.cell?_eq hrow fun hlock => hij ?_⟩
  exact h.secure.apart j i key hkey (hsound.held key hlock)

variable [DecidableEq ι]

/-- A call that does not wait for a lock and is not over takes its step. -/
theorem world_turn_of_answer {i : ι} (hwait : (b.calls i).isWaiting b.world = false)
    (hnext : (b.calls i).next? = some c) {f : Option Failure} {r : c.Answer}
    (hr : (b.world.respond f c).1 = some r) :
    (b.turn (.step i f)).world = (b.world.respond f c).2 := by
  rw [Activity.next?] at hnext
  simp only [turn, hwait, Bool.false_eq_true, if_false, Activity.step]
  cases hs : (b.calls i).script with
  | done r => simp [hs] at hnext
  | ask c' next =>
    rw [hs] at hnext
    cases hnext
    dsimp only
    rcases hrespond : b.world.respond f c with ⟨_ | r', w⟩
    · rw [hrespond] at hr
      cases hr
    · rfl

/-- What a turn does to store and index is what a step may do of a call that knows what is so. -/
theorem Safe.acts (h : b.Safe limits calls) (t : ShiftTurn ι) :
    ∃ (x : AnyCall) (s : Custody) (held : List IssueKey), s.Sound limits x b.world.store held ∧
      s.Acts limits x b.world (b.turn t).world := by
  have idle {w : World} (hacts : Custody.idle.Acts limits (.document ⟨""⟩) b.world w) :
      ∃ (x : AnyCall) (s : Custody) (held : List IssueKey), s.Sound limits x b.world.store held ∧
        s.Acts limits x b.world w :=
    ⟨_, .idle, [], Custody.sound_idle .., hacts⟩
  cases t with
  | ingest issues => exact idle (Custody.acts_insert b.world issues)
  | others gate catalog clock => exact idle (.quiet rfl rfl)
  | step i f =>
    rcases b.turn_step i f with heq | ⟨c, next, hs, -, ⟨r, -, heq⟩ | ⟨-, heq⟩⟩ <;> rw [heq]
    · exact idle (.quiet rfl rfl)
    · obtain ⟨s, hc, hsound⟩ := h.permits (c := c) (by rw [Activity.next?, hs])
      exact ⟨_, s, _, hsound, Custody.acts_respond hc b.world f⟩
    · obtain ⟨s, hc, hsound⟩ := h.permits (c := c) (by rw [Activity.next?, hs])
      exact ⟨_, s, _, hsound, (Custody.acts_respond hc b.world f).of_eq rfl rfl⟩

theorem Safe.step (h : b.Safe limits calls) (i : ι) (f : Option Failure) :
    (b.turn (.step i f)).Safe limits calls := by
  have hkeyed : (b.turn (.step i f)).world.store.Keyed :=
    world_step (P := fun w => w.store.Keyed) (fun w f c hw => keyed_respond hw f c)
      (fun w held hw => hw) h.keyed i f
  refine ⟨h.secure.turn _, hkeyed, fun j => ?_⟩
  rcases b.turn_step i f with heq | ⟨c, next, hs, -, hstep⟩
  · rw [heq]
    exact h.knows j
  obtain ⟨s, hattains, hsound⟩ := h.knows i
  rw [hs] at hattains
  have hacts := Custody.acts_respond hattains.1 b.world f
  rcases hstep with ⟨r, hr, heq⟩ | ⟨-, heq⟩ <;> rw [heq] <;> by_cases hj : j = i
  · subst hj
    obtain ⟨haddresses, hafter⟩ := hsound.respond h.keyed hattains.1 hr
    simp only [Function.update_self]
    exact ⟨s.after c r, hattains.2 r _ ⟨haddresses, rfl⟩, hafter⟩
  · simp only [Function.update_of_ne hj]
    exact h.others hj hsound hacts
  · subst hj
    simp only [Function.update_self]
    exact ⟨.idle, trivial, Custody.sound_idle ..⟩
  · simp only [Function.update_of_ne hj]
    exact h.others hj hsound (hacts.of_eq rfl rfl)

theorem Safe.turn (h : b.Safe limits calls) (t : ShiftTurn ι) : (b.turn t).Safe limits calls := by
  cases t with
  | step i f => exact h.step i f
  | ingest issues =>
    refine ⟨h.secure.turn _, keyed_perform h.keyed (.store (.insert issues)), fun i => ?_⟩
    obtain ⟨s, hattains, hsound⟩ := h.knows i
    -- rows come in only where none is, so at no key that a call knows a row of
    have hacts : Custody.idle.Acts limits (calls i) b.world _ := Custody.acts_insert b.world issues
    exact ⟨s, hattains, hsound.frame fun key _ hrow => hacts.cell?_eq hrow nofun⟩
  | others gate catalog clock =>
    exact ⟨h.secure.turn (.others gate catalog clock), h.keyed, h.knows⟩

theorem Safe.run (h : b.Safe limits calls) (ts : List (ShiftTurn ι)) :
    (b.run ts).Safe limits calls :=
  run_keeps (fun _ t h => h.turn t) h ts

end Shift

end Service

end Triage
