import Triage.Proofs.Service.Frame
import Triage.Proofs.Service.Lasting

/-!
# Where an issue comes from

The row at a key tells for good where its issue came from: whatever calls take turns, and whatever
fails and breaks off on the way, what is read there later has the same origin.  The effort is part
of this if the efforts that come into the store are read back as they are.
-/

namespace Triage

/-- Whether the issues have the same origin, and the same effort if that counts. -/
def Issue.Akin (counts : IssueKey → Prop) (i j : Issue) : Prop :=
  j.origin = i.origin ∧ (counts i.key → j.effortToFix = i.effortToFix)

namespace Issue

variable {counts : IssueKey → Prop} {i j k : Issue}

theorem Akin.refl (i : Issue) : i.Akin counts i := ⟨rfl, fun _ => rfl⟩

theorem Akin.key_eq (h : i.Akin counts j) : j.key = i.key := congrArg Origin.key h.1

theorem Akin.symm (h : i.Akin counts j) : j.Akin counts i :=
  ⟨h.1.symm, fun hc => (h.2 (h.key_eq ▸ hc)).symm⟩

theorem Akin.trans (h : i.Akin counts j) (h' : j.Akin counts k) : i.Akin counts k :=
  ⟨h'.1.trans h.1, fun hc => (h'.2 (h.key_eq ▸ hc)).trans (h.2 hc)⟩

/-- What a change makes of an issue. -/
theorem akin_of_changed {limits : ServiceLimits} {m : Service.Mutation}
    (h : m.changed limits i = .ok j) : i.Akin counts j := by
  have horigin := Service.Mutation.origin_of_changed h
  exact ⟨horigin.1, fun _ => horigin.2⟩

/-- What an issue is stamped as that takes the place of a row which is akin to it. -/
theorem Akin.updated (h : i.Akin counts j) (updatedAt now : Timestamp) :
    i.Akin counts (j.updated i.createdAt updatedAt now) := by
  refine ⟨?_, h.2⟩
  have horigin : (j.updated i.createdAt updatedAt now).origin =
      { j.origin with createdAt := i.createdAt } := rfl
  rw [horigin, h.1]
  rfl

end Issue

/-! ## Stores -/

namespace Store

variable {counts : IssueKey → Prop} {s s₁ s' : Store} {i j row : Issue} {now : Timestamp}

/-- Whether the efforts that count are read back as they are. -/
def Traced (counts : IssueKey → Prop) (s : Store) : Prop :=
  ∀ i, s.Reads i → counts i.key → s.IsExact i.effortToFix

/-- Whether the row that is read at the key of the issue is akin to it. -/
def Fixes (counts : IssueKey → Prop) (s : Store) (i : Issue) : Prop :=
  ∃ row, s.Reads row ∧ row.Akin counts i

/-- Whether all that was read is still read, or something akin to it. -/
def Continues (counts : IssueKey → Prop) (s s' : Store) : Prop :=
  ∀ i, s.Reads i → ∃ j, s'.Reads j ∧ i.Akin counts j

theorem Continues.refl (s : Store) : s.Continues counts s := fun i hi => ⟨i, hi, .refl i⟩

theorem Continues.trans (h : s.Continues counts s₁) (h' : s₁.Continues counts s') :
    s.Continues counts s' := by
  intro i hi
  obtain ⟨j, hj, hij⟩ := h i hi
  obtain ⟨k, hk, hjk⟩ := h' j hj
  exact ⟨k, hk, hij.trans hjk⟩

theorem Fixes.of_reads (h : s.Reads i) : s.Fixes counts i := ⟨i, h, .refl i⟩

theorem Fixes.continues (hi : s.Fixes counts i) (h : s.Continues counts s') :
    s'.Fixes counts i := by
  obtain ⟨row, hrow, hakin⟩ := hi
  obtain ⟨row', hrow', hakin'⟩ := h row hrow
  exact ⟨row', hrow', hakin'.symm.trans hakin⟩

theorem Holds.fixes (h : s.Holds i) (hexact : counts i.key → s.IsExact i.effortToFix) :
    s.Fixes counts i := by
  obtain ⟨effort, hread, heffort⟩ := h.exists_reads
  exact ⟨_, hread, rfl, fun hc => (heffort (hexact hc)).symm⟩

/-- Rows are written that are new or akin to those in whose place they are, with efforts that are
read back as they are if they count. -/
theorem Writes.traced {rows : List Issue} (h : s.Writes s' rows) (hs : s.Traced counts)
    (hkind : ∀ effort, s'.IsExact effort ↔ s.IsExact effort)
    (hexact : ∀ row ∈ rows, counts row.key → s.IsExact row.effortToFix)
    (hakin : ∀ row ∈ rows, ∀ i, s.Reads i → i.key = row.key → i.Akin counts row) :
    s'.Traced counts ∧ s.Continues counts s' ∧ ∀ row ∈ rows, s'.Fixes counts row := by
  have hfixes (row : Issue) (hrow : row ∈ rows) : s'.Fixes counts row :=
    (h.holds row hrow).fixes fun hc => (hkind _).2 (hexact row hrow hc)
  have hother {i : Issue} (hno : ¬∃ row ∈ rows, row.key = i.key) : s'.Reads i ↔ s.Reads i := by
    have hcell := h.others i.key fun row hrow hk => hno ⟨row, hrow, hk⟩
    rw [Reads, Reads, hcell]
  refine ⟨fun i hi hc => (hkind _).2 ?_, fun i hi => ?_, hfixes⟩
  · by_cases hin : ∃ row ∈ rows, row.key = i.key
    · obtain ⟨row, hrow, hk⟩ := hin
      obtain ⟨j, hj, hakin'⟩ := hfixes row hrow
      obtain rfl := hi.unique hj (hk.symm.trans hakin'.key_eq)
      rw [← hakin'.2 hc]
      exact hexact row hrow (hk ▸ hc)
    · exact hs i ((hother hin).1 hi) hc
  · by_cases hin : ∃ row ∈ rows, row.key = i.key
    · obtain ⟨row, hrow, hk⟩ := hin
      obtain ⟨j, hj, hakin'⟩ := hfixes row hrow
      exact ⟨j, hj, (hakin row hrow i hi hk.symm).trans hakin'.symm⟩
    · exact ⟨i, (hother hin).2 hi, .refl i⟩

end Store

/-! ## Calls -/

namespace Call

/-- Whether the call inserts only issues with efforts that are read back as they are, if they count,
and updates rows with issues that have the property.  No row is updated without its differences, and
no entry is filed by itself. -/
def Minds (counts : IssueKey → Prop) (exact : Option Binary64 → Prop) (P : Issue → Prop) :
    Call → Prop
  | .store (.insert issues) => ∀ i ∈ issues, counts i.key → exact i.effortToFix
  | .store (.updateWithChange i _ _) => P i
  | .store (.update _) | .store (.insertChange _) => False
  | _ => True

theorem Tells.mono {P P' : Issue → Prop} (hP : ∀ i, P i → P' i) {c : Call} {r : c.Answer}
    (h : c.Tells P r) : c.Tells P' r := by
  cases c with
  | store c =>
    cases c with
    | insert issues =>
      rcases r with e | rows
      · trivial
      · exact fun i hi => hP i (h i hi)
    | selectByKey key =>
      rcases r with e | _ | row
      · trivial
      · trivial
      · exact hP row h
    | updateWithChange i user diffs =>
      rcases r with e | row
      · trivial
      · exact hP row h
    | selectAll | update | insertChange | selectChanges => trivial
  | index | catalog | permits | freshKey | enter | leave | record => trivial

/-- The dialogue in which rows are updated with issues that have the property, and issues that have
it are answered. -/
def minding (counts : IssueKey → Prop) (exact : Option Binary64 → Prop) (P : Issue → Prop) :
    Dialogue Unit where
  permits _ c := c.Minds counts exact P
  answers _ c r _ := c.Tells P r

end Call

open Call (minding)

namespace World

variable {counts : IssueKey → Prop} {exact : Option Binary64 → Prop} {w w' : World}

/-- Whether the efforts that count are read back as they are in the store, which reads back those
that are exact. -/
structure Traces (counts : IssueKey → Prop) (exact : Option Binary64 → Prop) (w : World) :
    Prop where
  keyed : w.store.Keyed
  exact_iff : ∀ effort, w.store.IsExact effort ↔ exact effort
  traced : w.store.Traced counts

theorem Traces.of_store_eq (h : w.Traces counts exact) (hs : w'.store = w.store) :
    w'.Traces counts exact :=
  ⟨hs ▸ h.keyed, hs ▸ h.exact_iff, hs ▸ h.traced⟩

/-- A call of the store that inserts and updates as it should keeps what is read, and answers issues
that are akin to it. -/
theorem Traces.store (h : w.Traces counts exact) {c : StoreCall}
    (hc : (Call.store c).Minds counts exact (w.store.Fixes counts)) :
    ((w.perform (.store c)).2.Traces counts exact ∧
        w.store.Continues counts (w.perform (.store c)).2.store) ∧
      (Call.store c).Tells ((w.perform (.store c)).2.store.Fixes counts)
        (w.perform (.store c)).1 := by
  have hstay (heq : (w.store.perform w.clock c).2 = w.store) :
      (w.perform (.store c)).2.Traces counts exact ∧
        w.store.Continues counts (w.perform (.store c)).2.store :=
    ⟨h.of_store_eq heq, (congrArg (w.store.Continues counts) heq).mpr (.refl _)⟩
  have hwrites {rows : List Issue} (hw : w.store.Writes (w.store.perform w.clock c).2 rows)
      (hexact : ∀ row ∈ rows, counts row.key → w.store.IsExact row.effortToFix)
      (hakin : ∀ row ∈ rows, ∀ i, w.store.Reads i → i.key = row.key → i.Akin counts row) :
      ((w.perform (.store c)).2.Traces counts exact ∧
        w.store.Continues counts (w.perform (.store c)).2.store) ∧
        ∀ row ∈ rows, (w.store.perform w.clock c).2.Fixes counts row := by
    obtain ⟨htraced, hcontinues, hfixes⟩ :=
      hw.traced h.traced (Store.isExact_perform w.store w.clock c) hexact hakin
    refine ⟨⟨⟨h.keyed.perform w.clock c, fun effort => ?_, htraced⟩, hcontinues⟩, hfixes⟩
    exact (Store.isExact_perform w.store w.clock c effort).trans (h.exact_iff effort)
  change _ ∧ (Call.store c).Tells ((w.store.perform w.clock c).2.Fixes counts)
    (w.store.perform w.clock c).1
  cases c with
  | selectAll | selectChanges => exact ⟨hstay (Store.perform_of_isReading rfl), trivial⟩
  | update | insertChange => exact hc.elim
  | selectByKey key =>
    refine ⟨hstay (Store.perform_of_isReading rfl), ?_⟩
    rw [Store.perform_of_isReading rfl]
    rcases hr : (w.store.perform w.clock (.selectByKey key)).1 with e | _ | row
    · trivial
    · trivial
    · exact .of_reads (Store.reads_of_selectByKey h.keyed hr)
  | insert issues =>
    rcases hr : (w.store.perform w.clock (.insert issues)).1 with e | rows
    · exact ⟨hstay (Store.perform_of_error hr), trivial⟩
    · have hins := Store.inserts_of_insert (Prod.ext hr rfl)
      refine hwrites hins.writes (fun row hrow hcount => ?_) fun row hrow i hi hk => ?_
      · rw [hins.rows_eq] at hrow
        obtain ⟨i, hi, rfl⟩ := List.mem_map.1 hrow
        exact (h.exact_iff _).2 (hc i hi hcount)
      · rw [hins.rows_eq] at hrow
        obtain ⟨j, hj, rfl⟩ := List.mem_map.1 hrow
        exact absurd (hk ▸ hi.hasRow) (hins.fresh j hj)
  | updateWithChange j user diffs =>
    rcases hr : (w.store.perform w.clock (.updateWithChange j user diffs)).1 with e | row
    · exact ⟨hstay (Store.perform_of_error hr), trivial⟩
    · have hupd := Store.updates_of_updateWithChange (Prod.ext hr rfl)
      obtain ⟨old, hold, hakin⟩ := hc
      have hrow : old.Akin counts row := by
        obtain ⟨c, hcell, hread⟩ := hold
        rw [hupd.row_eq c old (hakin.key_eq ▸ hcell) (.inr hread)]
        exact hakin.updated _ _
      refine (hwrites hupd.writes ?_ ?_).imp_right fun hfixes => hfixes row List.mem_cons_self
      · refine List.forall_mem_singleton.2 fun hcount => ?_
        rw [hrow.2 (hrow.key_eq ▸ hcount)]
        exact h.traced old hold (hrow.key_eq ▸ hcount)
      · refine List.forall_mem_singleton.2 fun i hi hk => ?_
        obtain rfl := hi.unique hold (hk.trans hrow.key_eq)
        exact hrow

/-- A step keeps what is read, and answers issues that are akin to it. -/
theorem Traces.perform (h : w.Traces counts exact) {c : Call}
    (hc : c.Minds counts exact (w.store.Fixes counts)) :
    ((w.perform c).2.Traces counts exact ∧ w.store.Continues counts (w.perform c).2.store) ∧
      c.Tells ((w.perform c).2.store.Fixes counts) (w.perform c).1 := by
  cases c with
  | store c => exact h.store hc
  | index | catalog | permits | freshKey | enter | leave | record =>
    exact ⟨⟨h.of_store_eq rfl, .refl _⟩, trivial⟩

theorem Traces.respond (h : w.Traces counts exact) {c : Call}
    (hc : c.Minds counts exact (w.store.Fixes counts)) (f : Option Failure) :
    ((w.respond f c).2.Traces counts exact ∧ w.store.Continues counts (w.respond f c).2.store) ∧
      ∀ r, (w.respond f c).1 = some r → c.Tells ((w.respond f c).2.store.Fixes counts) r :=
  respond_tells (R := fun w' => w'.Traces counts exact ∧ w.store.Continues counts w'.store)
    (P := fun w' => w'.store.Fixes counts) ⟨h, .refl _⟩ (h.perform hc) f

end World

/-! ## Runs -/

namespace Service

variable {counts : IssueKey → Prop} {exact : Option Binary64 → Prop} {P : Issue → Prop}

/-- Whether no change of an issue leads out of the property. -/
def Mutation.Keeps (P : Issue → Prop) : Prop :=
  ∀ {limits : ServiceLimits} {m : Mutation} {i j : Issue}, m.changed limits i = .ok j → P i → P j

theorem Mutation.keeps_fixes (counts : IssueKey → Prop) (s : Store) :
    Mutation.Keeps (s.Fixes counts) := by
  rintro limits m i j hchanged ⟨row, hrow, hakin⟩
  exact ⟨row, hrow, hakin.trans (Issue.akin_of_changed hchanged)⟩

theorem hosts_minding (counts : IssueKey → Prop) (exact : Option Binary64 → Prop)
    (hP : Mutation.Keeps P) : Hosts (minding counts exact P) P where
  edits _ := {
    catalog := fun _ => trivial
    gate := fun _ _ _ => trivial
    enter := trivial
    leave := trivial
    select := trivial
    selected := fun h => h
    changed := hP
    update := fun h => h
    updated := fun _ h => h
    put := fun _ => trivial
    get := fun _ => trivial }
  freshKey := trivial
  inserted h := h
  selectAll := trivial
  selectChanges _ := trivial
  record _ := trivial
  index _ _ := trivial

namespace Shift

variable {ι : Type} {b : Shift ι}

/-- Whether the efforts that count are read back as they are, and every call under way updates rows
with issues that are akin to them: it would do so as well with any other issues that can come of
those. -/
structure Abides (counts : IssueKey → Prop) (exact : Option Binary64 → Prop) (b : Shift ι) :
    Prop where
  world : b.world.Traces counts exact
  calls : ∀ i P, Mutation.Keeps P → (∀ j, b.world.store.Fixes counts j → P j) →
    (b.calls i).script.Yields (minding counts exact P) fun _ => True

theorem Abides.start {w : World} (hw : w.Traces counts exact) (limits : ServiceLimits)
    {calls : ι → AnyCall}
    (hcalls : ∀ i q, (calls i).request? = some q → ∀ key, counts key → exact q.effortToFix) :
    (Shift.start limits w calls).Abides counts exact where
  world := hw
  calls i _ hP _ := (hosts_minding counts exact hP).yields_script limits
    fun q hq key _ _ _ => List.forall_mem_singleton.2 (hcalls i q hq key)

variable [DecidableEq ι]

theorem Abides.update (h : b.Abides counts exact) {w : World} (hw : w.Traces counts exact)
    (hstore : b.world.store.Continues counts w.store) (i : ι) {x : Script Unit}
    (hx : ∀ P, Mutation.Keeps P → (∀ j, w.store.Fixes counts j → P j) →
      x.Yields (minding counts exact P) fun _ => True) (held wrecked : List IssueKey) :
    Abides counts exact ⟨w, Function.update b.calls i ⟨x, held⟩, wrecked⟩ := by
  refine ⟨hw, fun j P hP hfixes => ?_⟩
  by_cases hj : j = i
  · subst hj
    simpa only [Function.update_self] using hx P hP hfixes
  · simpa only [Function.update_of_ne hj] using
      h.calls j P hP fun k hk => hfixes k (hk.continues hstore)

theorem Abides.step (h : b.Abides counts exact) (i : ι) (f : Option Failure) :
    (b.turn (.step i f)).Abides counts exact ∧
      b.world.store.Continues counts (b.turn (.step i f)).world.store := by
  rcases b.turn_step i f with heq | ⟨c, next, hs, -, hstep⟩
  · rw [heq]
    exact ⟨h, .refl _⟩
  have hscript := h.calls i
  rw [hs] at hscript
  have hc := (hscript _ (Mutation.keeps_fixes counts b.world.store) fun _ hj => hj).1
  obtain ⟨⟨hworld, hstore⟩, htells⟩ := h.world.respond hc f
  rcases hstep with ⟨r, hr, heq⟩ | ⟨-, heq⟩ <;> rw [heq]
  · refine ⟨h.update hworld hstore i (fun P hP hfixes => ?_) _ _, hstore⟩
    -- what was read before is akin to what is read now
    have hask := hscript P hP fun j hj => hfixes j (hj.continues hstore)
    exact hask.2 r () ((htells r hr).mono hfixes)
  · have hbroken : ((b.world.respond f c).2.abandon (b.calls i).held).Traces counts exact :=
      hworld.of_store_eq rfl
    exact ⟨h.update hbroken hstore i (fun _ _ _ => Script.yields_pure trivial) _ _, hstore⟩

theorem Abides.turn (h : b.Abides counts exact) {t : ShiftTurn ι}
    (ht : ∀ issues, t = .ingest issues → ∀ i ∈ issues, counts i.key → exact i.effortToFix) :
    (b.turn t).Abides counts exact ∧ b.world.store.Continues counts (b.turn t).world.store := by
  cases t with
  | step i f => exact h.step i f
  | ingest issues =>
    have hinsert : (Call.store (.insert issues)).Minds counts exact
        (b.world.store.Fixes counts) := ht issues rfl
    obtain ⟨⟨hworld, hstore⟩, -⟩ := h.world.perform hinsert
    exact ⟨⟨hworld, fun i P hP hfixes => h.calls i P hP fun j hj =>
      hfixes j (hj.continues hstore)⟩, hstore⟩
  | others gate catalog clock => exact ⟨⟨h.world.of_store_eq rfl, h.calls⟩, .refl _⟩

theorem Abides.run (h : b.Abides counts exact) {ts : List (ShiftTurn ι)}
    (hts : ∀ issues, .ingest issues ∈ ts → ∀ i ∈ issues, counts i.key → exact i.effortToFix) :
    (b.run ts).Abides counts exact ∧ b.world.store.Continues counts (b.run ts).world.store := by
  induction ts generalizing b with
  | nil => exact ⟨h, .refl _⟩
  | cons t ts ih =>
    obtain ⟨hturn, hstore⟩ := h.turn fun issues ht => hts issues (ht ▸ List.mem_cons_self)
    obtain ⟨hrun, hstore'⟩ := ih hturn fun issues hin => hts issues (List.mem_cons_of_mem t hin)
    exact ⟨hrun, hstore.trans hstore'⟩

/-- Whether the efforts that are in the store at the key, or may come there, are read back as they
are. -/
structure Exacting (key : IssueKey) (w : World) (calls : ι → AnyCall) (ts : List (ShiftTurn ι)) :
    Prop where
  stored : ∀ i, w.store.Reads i → i.key = key → w.store.IsExact i.effortToFix
  requested : ∀ i q, (calls i).request? = some q → w.store.IsExact q.effortToFix
  ingested : ∀ issues, .ingest issues ∈ ts → ∀ i ∈ issues, i.key = key →
    w.store.IsExact i.effortToFix

omit [DecidableEq ι] in
/-- In memory they all are. -/
theorem exacting_of_inMemory {w : World} (hw : w.InMemory) (key : IssueKey) (calls : ι → AnyCall)
    (ts : List (ShiftTurn ι)) : Exacting key w calls ts := by
  obtain ⟨m, hm⟩ := hw
  have hexact (effort : Option Binary64) : w.store.IsExact effort := by
    rw [hm]
    trivial
  exact ⟨fun _ _ _ => hexact _, fun _ _ _ => hexact _, fun _ _ _ _ _ => hexact _⟩

/-- What is read at a key in a run has the origin of what was read there before. -/
theorem origin_lasts (limits : ServiceLimits) {w : World} (hw : w.store.Keyed)
    (calls : ι → AnyCall) {key : IssueKey} {row : Issue} (ts ts' : List (ShiftTurn ι))
    (hread : ((Shift.start limits w calls).run ts).world.read (.selectByKey key) =
      .ok (some row)) :
    ∃ row', ((Shift.start limits w calls).run (ts ++ ts')).world.read (.selectByKey key) =
        .ok (some row') ∧ row'.origin = row.origin ∧
      (Exacting key w calls (ts ++ ts') → row'.effortToFix = row.effortToFix) := by
  let counts (k : IssueKey) : Prop := k = key ∧ Exacting key w calls (ts ++ ts')
  have hstart : (Shift.start limits w calls).Abides counts w.store.IsExact :=
    .start ⟨hw, fun _ => Iff.rfl, fun i hi hc => hc.2.stored i hi hc.1⟩ limits
      fun i q hq k hk => hk.2.requested i q hq
  have hexact (issues : List Issue) (hin : ShiftTurn.ingest issues ∈ ts ++ ts') (i : Issue)
      (hi : i ∈ issues) (hc : counts i.key) : w.store.IsExact i.effortToFix :=
    hc.2.ingested issues hin i hi hc.1
  obtain ⟨hmid, -⟩ := hstart.run fun issues hin =>
    hexact issues (List.mem_append_left ts' hin)
  obtain ⟨-, hcontinues⟩ := hmid.run fun issues hin =>
    hexact issues (List.mem_append_right ts hin)
  have hreads := Store.reads_of_selectByKey hmid.world.keyed hread
  obtain rfl : row.key = key := Store.key_of_selectByKey hmid.world.keyed hread
  obtain ⟨row', hreads', hakin⟩ := hcontinues row hreads
  have hrun : (Shift.start limits w calls).run (ts ++ ts') =
      ((Shift.start limits w calls).run ts).run ts' := List.foldl_append
  refine ⟨row', ?_, hakin.1, fun h => hakin.2 ⟨rfl, h⟩⟩
  rw [hrun, ← hakin.key_eq]
  exact hreads'.selectByKey _

end Shift

end Service

end Triage
