import Triage.Proofs.Service.Breakdown
import Triage.Proofs.Service.Hosting
import Triage.Proofs.Store.Steps

/-!
# What holds of every issue for good

A property of issues lasts if it holds of every issue raised by hand, if the changes that callers
ask for keep it, and if neither the stamps nor the effort matter to it.  Once it holds of all that
is put straight into the store, it holds of every row and of every document, however calls take
turns, fail and break off.
-/

namespace Triage

/-- Whether a property of issues lasts. -/
structure Lasting (P : Issue → Prop) : Prop where
  raised : ∀ (q : ManualIssueRequest) (key : IssueKey) (component : Component) (rule : Rule)
    (reporter : Login), P (q.issue key component rule reporter)
  changed : ∀ {limits : ServiceLimits} {m : Service.Mutation} {i j : Issue},
    m.changed limits i = .ok j → P i → P j
  stamped : ∀ {i : Issue} (createdAt updatedAt : Timestamp), P i → P { i with createdAt, updatedAt }
  measured : ∀ {i : Issue} (effort : Option Binary64), P i → P { i with effortToFix := effort }

namespace Call

/-- Whether the issues that the call hands over have the property.  No row is updated without its
differences, and no entry is filed by itself. -/
def Carries (P : Issue → Prop) : Call → Prop
  | .store (.insert issues) => ∀ i ∈ issues, P i
  | .store (.updateWithChange i _ _) => P i
  | .store (.update _) | .store (.insertChange _) => False
  | .index (.put d) => P ⟨d.toIssueFields⟩
  | _ => True

/-- Whether the issues that are stored, or read by their key, have the property. -/
def Tells (P : Issue → Prop) : (c : Call) → c.Answer → Prop
  | .store (.insert _), .ok rows => ∀ i ∈ rows, P i
  | .store (.selectByKey _), .ok (some row) => P row
  | .store (.updateWithChange _ _ _), .ok row => P row
  | _, _ => True

theorem tells_error {P : Issue → Prop} {c : StoreCall} {e : StoreError} :
    (Call.store c).Tells P (.error e) := by
  cases c <;> trivial

/-- The dialogue in which only issues with the property are handed over and answered. -/
def carrying (P : Issue → Prop) : Dialogue Unit where
  permits _ c := c.Carries P
  answers _ c r _ := c.Tells P r

end Call

open Call (carrying)

/-! ## Worlds -/

namespace World

/-- Whether all rows and documents have the property. -/
structure All (w : World) (P : Issue → Prop) : Prop where
  rows : ∀ key, w.store.HasRow key → ∃ i, i.key = key ∧ w.store.Holds i ∧ P i
  docs : ∀ key d, w.index.get? key = some d → P ⟨d.toIssueFields⟩

variable {P : Issue → Prop} {w : World}

/-- A row that is read has the property. -/
theorem All.of_read (h : w.All P) (hP : Lasting P) {key : IssueKey} {row : Issue}
    (hread : w.read (.selectByKey key) = .ok (some row)) : P row := by
  obtain ⟨c, hc, -⟩ := Store.exists_cell?_of_selectByKey hread
  obtain ⟨i, rfl, hi, hPi⟩ := h.rows key (Option.isSome_iff_exists.2 ⟨c, hc⟩)
  obtain ⟨effort, heffort⟩ := hi.exists_selectByKey w.clock
  obtain rfl : row = { i with effortToFix := effort } :=
    Option.some.inj (Except.ok.inj (hread.symm.trans heffort))
  exact hP.measured effort hPi

theorem rows_of_writes {s s' : Store} {rows : List Issue} (hw : s.Writes s' rows)
    (h : ∀ key, s.HasRow key → ∃ i, i.key = key ∧ s.Holds i ∧ P i) (hrows : ∀ i ∈ rows, P i) :
    ∀ key, s'.HasRow key → ∃ i, i.key = key ∧ s'.Holds i ∧ P i := by
  intro key hkey
  by_cases hin : ∃ i ∈ rows, i.key = key
  · obtain ⟨i, hi, hik⟩ := hin
    exact ⟨i, hik, hw.holds i hi, hrows i hi⟩
  · have hcell := hw.others key fun i hi hik => hin ⟨i, hi, hik⟩
    obtain ⟨i, rfl, hi, hPi⟩ := h key ((Store.hasRow_iff_of_cell?_eq hcell).1 hkey)
    exact ⟨i, rfl, (Store.holds_iff_of_cell?_eq hcell).2 hi, hPi⟩

theorem All.insert (h : w.All P) (hP : Lasting P) {issues rows : List Issue} {s' : Store}
    (hins : w.store.Inserts s' w.clock issues rows) (hissues : ∀ i ∈ issues, P i) :
    World.All { w with store := s' } P ∧ ∀ i ∈ rows, P i := by
  have hrows : ∀ i ∈ rows, P i := by
    rw [hins.rows_eq]
    intro row hrow
    obtain ⟨i, hi, rfl⟩ := List.mem_map.1 hrow
    exact hP.stamped _ _ (hissues i hi)
  exact ⟨⟨rows_of_writes hins.writes h.rows hrows, h.docs⟩, hrows⟩

theorem All.update (h : w.All P) (hP : Lasting P) {i row : Issue} {s' : Store} {user : Login}
    {diffs : List FieldDiff} (hupd : w.store.Updates s' w.clock i row user diffs) (hi : P i) :
    World.All { w with store := s' } P ∧ P row := by
  obtain ⟨old, hkey, hold, -⟩ := h.rows i.key hupd.hasRow
  obtain ⟨c, hc, hshows⟩ := hold.shows
  have hrow : P row := by
    rw [hupd.row_eq c old (hkey ▸ hc) hshows]
    exact hP.stamped _ _ hi
  exact ⟨⟨rows_of_writes hupd.writes h.rows (by simpa using hrow), h.docs⟩, hrow⟩

/-- A call of the store that hands over issues with the property keeps it, and answers such ones. -/
theorem All.store (h : w.All P) (hP : Lasting P) {c : StoreCall} (hc : (Call.store c).Carries P) :
    (w.perform (.store c)).2.All P ∧ (Call.store c).Tells P (w.perform (.store c)).1 := by
  have hread (hc : c.isReading = true) : (w.perform (.store c)).2.All P := by
    change World.All { w with store := (w.store.perform w.clock c).2 } P
    rw [Store.perform_of_isReading hc]
    exact h
  have hfailed {e : StoreError} (hr : (w.store.perform w.clock c).1 = .error e) :
      (w.perform (.store c)).2.All P := by
    change World.All { w with store := (w.store.perform w.clock c).2 } P
    rw [Store.perform_of_error hr]
    exact h
  change _ ∧ (Call.store c).Tells P (w.store.perform w.clock c).1
  cases c with
  | selectAll | selectChanges => exact ⟨hread rfl, trivial⟩
  | update | insertChange => exact hc.elim
  | selectByKey key =>
    refine ⟨hread rfl, ?_⟩
    rcases hr : (w.store.perform w.clock (.selectByKey key)).1 with e | _ | row
    · trivial
    · trivial
    · exact h.of_read hP hr
  | insert issues =>
    rcases hr : (w.store.perform w.clock (.insert issues)).1 with e | rows
    · exact ⟨hfailed hr, trivial⟩
    · exact h.insert hP (Store.inserts_of_insert (Prod.ext hr rfl)) hc
  | updateWithChange i user diffs =>
    rcases hr : (w.store.perform w.clock (.updateWithChange i user diffs)).1 with e | row
    · exact ⟨hfailed hr, trivial⟩
    · exact h.update hP (Store.updates_of_updateWithChange (Prod.ext hr rfl)) hc

theorem All.index (h : w.All P) {c : IndexCall} (hc : (Call.index c).Carries P) :
    (w.perform (.index c)).2.All P := by
  refine ⟨h.rows, fun key d hd => ?_⟩
  change (w.index.perform c).2.get? key = some d at hd
  cases c with
  | put d' =>
    rw [Index.perform, Index.get?_put] at hd
    split_ifs at hd
    · cases hd
      exact hc
    · exact h.docs key d hd
  | remove key' =>
    rw [Index.perform, Index.get?_remove] at hd
    split_ifs at hd
    exact h.docs key d hd
  | keys | get | search | listTags | facet => exact h.docs key d hd

/-- A step keeps the property of all rows and documents, and answers issues that have it. -/
theorem All.perform (h : w.All P) (hP : Lasting P) {c : Call} (hc : c.Carries P) :
    (w.perform c).2.All P ∧ c.Tells P (w.perform c).1 := by
  cases c with
  | store c => exact h.store hP hc
  | index c => exact ⟨h.index hc, trivial⟩
  | catalog | permits | freshKey | enter | leave | record => exact ⟨⟨h.rows, h.docs⟩, trivial⟩

/-- What holds of a world and of the one after a step holds as well if the step is disturbed: that
withholds its answer or the content of it, and tells nothing else. -/
theorem respond_tells {R : World → Prop} {P : World → Issue → Prop} {c : Call} (hw : R w)
    (h : R (w.perform c).2 ∧ c.Tells (P (w.perform c).2) (w.perform c).1) (f : Option Failure) :
    R (w.respond f c).2 ∧
      ∀ r, (w.respond f c).1 = some r → c.Tells (P (w.respond f c).2) r := by
  unfold World.respond
  split
  case h_1 =>
    split_ifs
    · exact ⟨hw, nofun⟩
    · exact ⟨h.1, fun r hr => Option.some.inj hr ▸ h.2⟩
  case h_2 =>
    refine ⟨hw, ?_⟩
    rintro _ ⟨⟩
    exact Call.tells_error
  case h_3 | h_4 | h_6 =>
    refine ⟨hw, ?_⟩
    rintro _ ⟨⟩
    trivial
  case h_5 issues =>
    generalize w.perform (.store (.insert issues)) = p at h ⊢
    obtain ⟨r, w'⟩ := p
    refine ⟨h.1, ?_⟩
    rintro _ ⟨⟩
    cases r with
    | error e => trivial
    | ok rows => exact List.forall_mem_nil _
  case h_7 => exact ⟨h.1, fun r hr => Option.some.inj hr ▸ h.2⟩

theorem tells_respond {c : Call} (h : c.Tells P (w.perform c).1) {f : Option Failure} {r : c.Answer}
    (hr : (w.respond f c).1 = some r) : c.Tells P r :=
  (respond_tells (R := fun _ => True) (P := fun _ => P) trivial ⟨trivial, h⟩ f).2 r hr

theorem All.respond (h : w.All P) (hP : Lasting P) {c : Call} (hc : c.Carries P)
    (f : Option Failure) :
    (w.respond f c).2.All P ∧ ∀ r, (w.respond f c).1 = some r → c.Tells P r :=
  respond_tells (R := (·.All P)) (P := fun _ => P) h (h.perform hP hc) f

end World

/-! ## Scripts -/

variable {α β : Type} {P : Issue → Prop}

namespace Service

open Attempt

theorem hosts_carrying (hP : Lasting P) : Hosts (carrying P) P where
  edits _ := {
    catalog := fun _ => trivial
    gate := fun _ _ _ => trivial
    enter := trivial
    leave := trivial
    select := trivial
    selected := fun h => h
    changed := hP.changed
    update := fun h => h
    updated := fun _ h => h
    put := fun h => h
    get := fun _ => trivial }
  freshKey := trivial
  inserted h := h
  selectAll := trivial
  selectChanges _ := trivial
  record _ := trivial
  index c hc := by
    cases c with
    | put d => cases hc
    | get | remove | keys | search | listTags | facet => trivial

/-- Every call of the service hands over only issues with a property that lasts. -/
theorem AnyCall.yields_script (hP : Lasting P) (limits : ServiceLimits) (c : AnyCall) :
    (c.script limits).Yields (carrying P) fun _ => True :=
  (hosts_carrying hP).yields_script limits fun q _ key component rule reporter =>
    List.forall_mem_singleton.2 (hP.raised q key component rule reporter)

/-! ## Runs -/

namespace Shift

variable {ι : Type} {b : Shift ι}

/-- Whether all rows and documents have the property, and every call under way hands over only
issues that have it. -/
structure Lasts (P : Issue → Prop) (b : Shift ι) : Prop where
  world : b.world.All P
  calls : ∀ i, (b.calls i).script.Yields (carrying P) fun _ => True

theorem Lasts.start (hP : Lasting P) {w : World} (hw : Start w) (limits : ServiceLimits)
    (calls : ι → AnyCall) : (Shift.start limits w calls).Lasts P where
  world := ⟨fun key hrow => absurd hrow (hw.rows key), fun key d hd => by
    cases (hw.docs key).symm.trans hd⟩
  calls i := (calls i).yields_script hP limits

variable [DecidableEq ι]

theorem Lasts.update (h : b.Lasts P) {w : World} (hw : w.All P) (i : ι) {x : Script Unit}
    (hx : x.Yields (carrying P) fun _ => True) (held wrecked : List IssueKey) :
    Lasts P ⟨w, Function.update b.calls i ⟨x, held⟩, wrecked⟩ := by
  refine ⟨hw, fun j => ?_⟩
  by_cases hj : j = i
  · subst hj
    simpa only [Function.update_self] using hx
  · simpa only [Function.update_of_ne hj] using h.calls j

theorem Lasts.step (hP : Lasting P) (h : b.Lasts P) (i : ι) (f : Option Failure) :
    (b.turn (.step i f)).Lasts P := by
  rcases b.turn_step i f with heq | ⟨c, next, hs, -, hstep⟩
  · rwa [heq]
  have hscript := h.calls i
  rw [hs] at hscript
  obtain ⟨hc, hnext⟩ := hscript
  obtain ⟨hworld, htells⟩ := h.world.respond hP hc f
  rcases hstep with ⟨r, hr, heq⟩ | ⟨-, heq⟩ <;> rw [heq]
  · exact h.update hworld i (hnext r () (htells r hr)) _ _
  · have hbroken : ((b.world.respond f c).2.abandon (b.calls i).held).All P :=
      ⟨hworld.rows, hworld.docs⟩
    exact h.update hbroken i (Script.yields_pure trivial) _ _

/-- What comes next in a run keeps the property, if it is not put into the store without it. -/
theorem Lasts.turn (hP : Lasting P) (h : b.Lasts P) {t : ShiftTurn ι}
    (ht : ∀ issues, t = .ingest issues → ∀ i ∈ issues, P i) : (b.turn t).Lasts P := by
  cases t with
  | step i f => exact h.step hP i f
  | ingest issues =>
    have hinsert : (Call.store (.insert issues)).Carries P := ht issues rfl
    exact ⟨(h.world.perform hP hinsert).1, h.calls⟩
  | others gate catalog clock => exact ⟨⟨h.world.rows, h.world.docs⟩, h.calls⟩

theorem Lasts.run (hP : Lasting P) (h : b.Lasts P) {ts : List (ShiftTurn ι)}
    (hts : ∀ issues, .ingest issues ∈ ts → ∀ i ∈ issues, P i) : (b.run ts).Lasts P := by
  induction ts generalizing b with
  | nil => exact h
  | cons t ts ih =>
    refine ih (h.turn hP fun issues ht => hts issues (ht ▸ List.mem_cons_self)) fun issues hin => ?_
    exact hts issues (List.mem_cons_of_mem t hin)

end Shift

end Service

end Triage
