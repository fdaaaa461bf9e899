import Triage.Config.Building
import Triage.Proofs.Audit
import Triage.Proofs.Service.Breakdown
import Triage.Proofs.Service.Hosting

/-!
# The log of a service

Every call that returns and that is not a mere question leaves one event, and does so last: when a
call breaks off, none of it is in the log.  A log in a file grows by one line for each such call,
however often the file is opened in between, and each line tells its call.  The project that it
names is the one that the gate was asked about.
-/

namespace Triage

/-- Whether the step adds an event to the log. -/
def Call.isRecord : Call → Bool
  | .record _ => true
  | _ => false

/-- The project that the gate is asked about. -/
def Call.asked? : Call → Option ProjectKey
  | .permits _ _ project => some project
  | _ => none

/-- The project that the run of a script asks the gate about, the first one if there are several. -/
def Script.asked? {α : Type} (w : World) (fs : List (Option Failure)) :
    Script α → Option ProjectKey
  | .done _ => none
  | .ask c next => c.asked?.or <|
    match w.respond (fs.head?.getD none) c with
    | (some r, w) => (next r).asked? w fs.tail
    | (none, _) => none

namespace World

variable {w w' : World} {f : Option Failure} {c : Call} {r : c.Answer}

/-! ## Disturbed answers -/

theorem audit_respond (w : World) (f : Option Failure) (hc : c.isRecord = false) :
    (w.respond f c).2.audit = w.audit := by
  rcases w.respond_snd f c with hw | hw <;> rw [hw]
  cases c with
  | store | index | catalog | permits | freshKey | enter | leave => rfl
  | record e => cases hc

theorem eq_of_respond_inside (hc : c.isOutside = false) (h : w.respond f c = (some r, w')) :
    w' = (w.perform c).2 := by
  rw [respond_inside w f hc] at h
  exact (Prod.mk.inj h).2.symm

theorem respond_eq_none (h : w.respond f c = (none, w')) : c.isOutside = true ∧ w' = w := by
  by_cases hc : c.isOutside = true
  · refine ⟨hc, ?_⟩
    rcases respond_uniform f c with ⟨r, hr⟩ | ⟨g, hr⟩ <;> rw [hr] at h
    · exact (Prod.mk.inj h).2.symm
    · cases (Prod.mk.inj h).1
  · rw [respond_inside w f (by simpa using hc)] at h
    cases (Prod.mk.inj h).1

/-- An answer that is not emptied is that of a world that may refuse. -/
theorem answers_of_respond (hempty : w.respond (some .empty) c = w.respond none c)
    (h : w.respond f c = (some r, w')) : w.Answers c r w' := by
  have hrefusing : ∃ f', w.respond f c = (some (w.refusing f' c).1, (w.refusing f' c).2) := by
    rcases f with _ | (e | e | e | _ | _)
    · exact ⟨none, w.respond_refusal none c⟩
    · exact ⟨some (.store e), w.respond_refusal (some (.store e)) c⟩
    · exact ⟨some (.index e), w.respond_refusal (some (.index e)) c⟩
    · exact ⟨some (.catalog e), w.respond_refusal (some (.catalog e)) c⟩
    · exact ⟨none, hempty.trans (w.respond_refusal none c)⟩
    · by_cases hc : c.isOutside = true
      · have hbreak : w.respond (some .panic) c = (none, w) := if_pos hc
        cases (Prod.mk.inj (hbreak.symm.trans h)).1
      · exact ⟨none, (respond_inside w _ (by simpa using hc)).trans
          ((respond_inside w none (by simpa using hc)).symm.trans (w.respond_refusal none c))⟩
  obtain ⟨f', hf'⟩ := hrefusing
  obtain ⟨hr, rfl⟩ := Prod.mk.inj (hf'.symm.trans h)
  rw [← Option.some.inj hr]
  exact w.answers_refusing f' c

/-! ## The dialogue -/

/-- The dialogue of a world whose calls may be disturbed in any way, as long as its log is `a`; it
notes the project that the gate is asked about first. -/
def logging (a : AuditSink) : Dialogue (World × Option ProjectKey) where
  permits s c := c.isOutside = true → s.1.audit = a
  answers s c r s' := (∃ f, s.1.respond f c = (some r, s'.1)) ∧ s'.2 = s.2.or c.asked?

end World

open World

section

variable {α : Type} {a : AuditSink} {w : World} {s : World × Option ProjectKey}

/-- A run returns in what is attained, with the project that it has asked the gate about, or it
breaks off before anything is added to the log. -/
theorem Script.Attains.runFrom_logging {x : Script α} {Q : α → World × Option ProjectKey → Prop}
    {o : Option ProjectKey} (h : x.Attains (logging a) Q (w, o)) (held : List IssueKey)
    (fs : List (Option Failure)) :
    (∃ r w', x.runFrom w held fs = (.returned r, w') ∧ Q r (w', o.or (x.asked? w fs))) ∨
      ∃ w', x.runFrom w held fs = (.panicked, w') ∧ w'.audit = a := by
  induction x generalizing w o held fs with
  | done r => exact .inl ⟨r, w, rfl, (Option.or_none (o := o)).symm ▸ h⟩
  | ask c next ih =>
    rw [Script.runFrom, Script.asked?, ← Option.or_assoc]
    rcases hr : w.respond (fs.head?.getD none) c with ⟨_ | r, w'⟩
    · obtain ⟨hc, rfl⟩ := respond_eq_none hr
      exact .inr ⟨_, rfl, h.1 hc⟩
    · exact ih r (h.2 r (w', o.or c.asked?) ⟨⟨_, hr⟩, rfl⟩) _ _

/-- The dialogue without memory in which no event may be recorded. -/
def quiet : Dialogue Unit where
  permits _ c := c.isRecord = false
  answers _ _ _ _ := True

/-- A step inside the service goes as if undisturbed, and if it is no question to the gate, what has
been asked stays. -/
theorem eq_of_logging_inside {c : Call} {r : c.Answer} {s' : World × Option ProjectKey}
    (hc : c.isOutside = false) (hasked : c.asked? = none) (h : (logging a).answers s c r s') :
    s' = ((s.1.perform c).2, s.2) := by
  obtain ⟨⟨f, hf⟩, hnoted⟩ := h
  rw [hasked, Option.or_none] at hnoted
  exact Prod.ext (eq_of_respond_inside hc hf) hnoted

theorem audit_of_logging {c : Call} {r : c.Answer} {s' : World × Option ProjectKey}
    (hc : c.isRecord = false) (h : (logging a).answers s c r s') (hs : s.1.audit = a) :
    s'.1.audit = a := by
  obtain ⟨⟨f, hf⟩, -⟩ := h
  have haudit := s.1.audit_respond f hc
  rw [hf] at haudit
  exact haudit.trans hs

/-- What records no event leaves the log as it is, and the project that was asked about first. -/
theorem Script.Yields.attains_logging {x : Script α} {R : α → Prop} (h : x.Yields quiet R)
    (hs : s.1.audit = a) : x.Attains (logging a) (fun _ s' => s'.1.audit = a ∧
      ∀ project, s.2 = some project → s'.2 = some project) s := by
  induction x generalizing s with
  | done r => exact ⟨hs, fun _ => id⟩
  | ask c next ih =>
    refine ⟨fun _ => hs, fun r s' hr => ?_⟩
    refine (ih r (h.2 r () trivial) (audit_of_logging h.1 hr hs)).mono fun _ s'' h' => ?_
    exact ⟨h'.1, fun project hproject => h'.2 project (by rw [hr.2, hproject, Option.some_or])⟩

/-- What first asks the gate has then asked it about that project. -/
theorem Script.Yields.attains_logging_permits {principal : Principal} {op : Operation}
    {project : ProjectKey} {next : Bool → Script α} {R : α → Prop}
    (h : (Script.ask (.permits principal op project) next).Yields quiet R) (hs : s.1.audit = a)
    (hnone : s.2 = none) : (Script.ask (.permits principal op project) next).Attains (logging a)
      (fun _ s' => s'.1.audit = a ∧ s'.2 = some project) s := by
  refine ⟨fun _ => hs, fun permitted s' hr => ?_⟩
  have hasked : s'.2 = some project := by rw [hr.2, hnone, Option.none_or]; rfl
  exact (Script.Yields.attains_logging (h.2 permitted () trivial)
    (audit_of_logging h.1 hr hs)).mono fun _ s'' h' => ⟨h'.1, h'.2 project hasked⟩

end

namespace Service

open Attempt

theorem seats_quiet : Seats quiet fun _ => True where
  edits _ := {
    catalog := fun _ => rfl
    gate := fun _ _ _ => rfl
    enter := rfl
    leave := rfl
    select := rfl
    selected := fun _ => trivial
    changed := fun _ _ => trivial
    update := fun _ => rfl
    updated := fun _ _ => trivial
    put := fun _ => rfl
    get := fun _ => rfl }
  freshKey := rfl
  inserted _ _ _ := trivial
  selectAll := rfl
  selectChanges _ := rfl
  index _ _ := rfl

theorem raisable_quiet (q : ManualIssueRequest) : Raisable quiet q := fun _ _ _ _ => rfl

/-! ## The event of a call -/

namespace ServiceCall

/-- The call as the log knows it. -/
def audited : ServiceCall → AuditedCall
  | issue (.change _ _ m) => .mutation m.operation
  | issue (.create _ _) => .mutation .createManualIssue
  | issue (.reindex _) => .reindex
  | indexAll => .indexAll

/-- The issue that the call names, or that it has raised. -/
def issueKey? (r : Reply) : ServiceCall → Option IssueKey
  | issue (.change _ key _) | issue (.reindex key) => some key
  | issue (.create _ _) =>
    match r with
    | .ok (.inl d) => some d.key
    | _ => none
  | indexAll => none

/-- Who asks for a mutation. -/
def login? : ServiceCall → Option Login
  | issue (.change principal _ _) | issue (.create principal _) => some principal.login
  | _ => none

/-- What becomes of the call with this reply. -/
def outcome (r : Reply) (c : ServiceCall) : AuditOutcome :=
  match r with
  | .ok _ => .applied
  | .error e =>
    match c.login? with
    | some _ => .ofMutationError e.kind
    | none => .ofReindexError e.kind

/-- The project that the event names: that which the gate was asked about; a call that only rebuilds
the index names none. -/
def project? (c : ServiceCall) (asked : Option ProjectKey) : Option ProjectKey :=
  c.login?.bind fun _ => asked

/-- The event of the call with this reply, on an issue of the project. -/
def event (c : ServiceCall) (r : Reply) (project : Option ProjectKey) : AuditEvent where
  call := c.audited
  issueKey := c.issueKey? r
  principal := c.login?
  projectKey := project
  outcome := c.outcome r
  errorKind := match r with
    | .ok _ => none
    | .error e => some e.kind

/-- Whether a mutation finds the project in the world: that of the row to change, or of the
component that the issue is raised on. -/
def Finds (w : World) : ServiceCall → ProjectKey → Prop
  | issue (.change _ key _), project => ∃ row root,
    w.read (.selectByKey key) = .ok (some row) ∧
      w.catalog.project? row.projectUuid = some root ∧ project = root.projectKey
  | issue (.create _ q), project => ∃ component root,
    w.catalog.component? q.componentKey = some component ∧
      w.catalog.project? component.projectUuid = some root ∧ project = root.projectKey
  | _, _ => False

/-- Whether the event of the call with this reply names the right project: that which a mutation
finds, and none if it fails before or the call only rebuilds the index. -/
def Resolves (w : World) (c : ServiceCall) (r : Reply) : Option ProjectKey → Prop
  | some project => c.Finds w project
  | none => c.login? = none ∨ ∃ e : ServiceError, r = .error e ∧
    (e.kind = .notFound ∨ e.kind = .storeUnavailable ∨ e.kind = .catalogUnavailable)

end ServiceCall

section

variable {a : AuditSink} {s : World × Option ProjectKey} {key : IssueKey}

theorem consults_logging (hs : s.1.audit = a) :
    (logging a).Consults s fun c answer => answer = s.1.catalog.answer c := by
  refine ⟨fun _ _ => hs, fun _ _ s' ⟨⟨f, hf⟩, hasked⟩ => ?_⟩
  obtain ⟨hworld, hknown⟩ := (answers_of_respond rfl hf).catalog
  exact ⟨Prod.ext hworld (hasked.trans Option.or_none), hknown⟩

theorem attains_loadIssue_logging
    {Q : Except ServiceError Issue → World × Option ProjectKey → Prop} (hs : s.1.audit = a)
    (hok : ∀ row, s.1.read (.selectByKey key) = .ok (some row) → Q (.ok row) s)
    (herr : ∀ e : ServiceError, e.kind = .notFound ∨ e.kind = .storeUnavailable →
      Q (.error e) s) : (loadIssue key).Attains (logging a) Q s := by
  refine attains_bind.2 (attains_store.2 ⟨fun _ => hs, fun r s' ⟨⟨f, hf⟩, hasked⟩ => ?_⟩)
  obtain ⟨hworld, hread⟩ := (answers_of_respond rfl hf).selectByKey
  obtain rfl : s' = s := Prod.ext hworld (hasked.trans Option.or_none)
  cases r with
  | error e => exact herr _ (.inr rfl)
  | ok o =>
    exact attains_found_of (fun row hrow => hok row (hrow ▸ hread o rfl)) (herr _ (.inl rfl))

theorem attains_locked_logging {α : Type} {refused : α} {body : Script α}
    {R : α → Option ProjectKey → Prop} (hs : s.1.audit = a) (hrefused : R refused s.2)
    (hbody : ∀ t, body.Attains (logging a) (fun r s' => s'.1.audit = a ∧ R r s'.2)
      ({ s.1 with locks := t }, s.2)) :
    (locked key refused body).Attains (logging a) (fun r s' => s'.1.audit = a ∧ R r s'.2) s := by
  refine Script.attains_bind.2 (Script.attains_single.2 ⟨nofun, fun entered s' hr => ?_⟩)
  obtain rfl := eq_of_logging_inside rfl rfl hr
  cases entered with
  | false => exact ⟨hs, hrefused⟩
  | true =>
    refine Script.attains_bind.2 ((hbody _).mono fun r s' h => ⟨nofun, fun _ s'' hr => ?_⟩)
    obtain rfl := eq_of_logging_inside rfl rfl hr
    exact h

end

/-! ## One event for each call -/

namespace ServiceCall

variable {w : World}

/-- Whether the call, which has asked the gate about this project, has left its event, and nothing
else, in the log. -/
def Leaves (w : World) (c : ServiceCall) (r : Reply) (asked : Option ProjectKey) (a : AuditSink) :
    Prop :=
  c.Resolves w r (c.project? asked) ∧
    ∃ stamp, a = w.audit.record stamp (c.event r (c.project? asked))

/-- Whether `project` is the one that the event of the call names. -/
def Names (w : World) (c : ServiceCall) (r : Reply) (asked project : Option ProjectKey) : Prop :=
  project = c.project? asked ∧ c.Resolves w r project

/-- A call does its work, records its event and answers. -/
theorem attains_recorded {α β : Type} {c : ServiceCall} {x : Script β} {e : β → AuditEvent}
    (answer : β → α) (reply : α → Reply) (project : β → Option ProjectKey)
    (hx : x.Attains (logging w.audit) (fun b s' => s'.1.audit = w.audit ∧
      c.Names w (reply (answer b)) s'.2 (project b)) (w, none))
    (he : ∀ b, e b = c.event (reply (answer b)) (project b)) :
    (do
      let a ← (do
        let b ← x
        Script.single (.record (e b))
        return answer b)
      return reply a : Script Reply).Attains (logging w.audit)
      (fun r s' => c.Leaves w r s'.2 s'.1.audit) (w, none) := by
  refine Script.attains_bind.2 (Script.attains_bind.2 (hx.mono fun b s' h => ?_))
  obtain ⟨haudit, hproject, hresolved⟩ := h
  refine Script.attains_bind.2 (Script.attains_single.2 ⟨nofun, fun _ s'' hr => ?_⟩)
  obtain rfl := eq_of_logging_inside rfl rfl hr
  refine ⟨hproject ▸ hresolved, s'.1.auditStamp, ?_⟩
  rw [← hproject, ← he b, ← haudit]
  rfl

theorem attains_change_logging (limits : ServiceLimits) (principal : Principal) (key : IssueKey)
    (m : Mutation) :
    ((issue (.change principal key m)).script limits).Attains (logging w.audit)
      (fun r s' => (issue (.change principal key m)).Leaves w r s'.2 s'.1.audit) (w, none) := by
  let c := issue (.change principal key m)
  have hlocked : (locked key ⟨none, .error .lockPoisoned⟩
      (mutateLocked limits principal key m)).Attains (logging w.audit) (fun mutated s' =>
        s'.1.audit = w.audit ∧ c.Names w (mutated.result.map .inl) s'.2 mutated.project)
      (w, none) := by
    refine attains_locked_logging
      (R := fun (mutated : Mutated) asked =>
        c.Names w (mutated.result.map .inl) asked mutated.project)
      rfl ⟨rfl, .inr ⟨_, rfl, .inr (.inl rfl)⟩⟩ fun t => ?_
    refine attains_inProject_of (attains_bind.2 (attains_loadIssue_logging rfl
      (fun row hrow => ?_) fun e he => ⟨rfl, rfl, .inr ⟨e, rfl, he.imp_right .inl⟩⟩))
    refine attains_bind.2 (attains_findProject_of (consults_logging rfl) (fun root hroot => ?_)
      fun e he => ⟨rfl, rfl, .inr ⟨e, rfl, he.imp_right .inr⟩⟩)
    have hquiet : (changeRow limits principal m row root.projectKey).Yields quiet fun _ => True :=
      (seats_quiet.edits key).yields_changeRow trivial root.projectKey
    have hfinds : c.Finds w root.projectKey := ⟨row, root, hrow, hroot.symm, rfl⟩
    exact (Script.Yields.attains_logging_permits hquiet rfl rfl).mono fun r s' h =>
      ⟨h.1, h.2.symm, hfinds⟩
  exact attains_recorded Mutated.result (Except.map .inl) Mutated.project hlocked
    fun ⟨project, r⟩ => by cases r <;> rfl

theorem attains_create_logging (limits : ServiceLimits) (principal : Principal)
    (q : ManualIssueRequest) :
    ((issue (.create principal q)).script limits).Attains (logging w.audit)
      (fun r s' => (issue (.create principal q)).Leaves w r s'.2 s'.1.audit) (w, none) := by
  let c := issue (.create principal q)
  have hraise : (inProject (findComponent q.componentKey) (raiseIssue limits principal q)).Attains
      (logging w.audit) (fun mutated s' =>
        s'.1.audit = w.audit ∧ c.Names w (mutated.result.map .inl) s'.2 mutated.project)
      (w, none) := by
    refine attains_inProject_of (attains_findComponent_of (consults_logging rfl)
      (fun component root hcomponent hroot => ?_)
      fun e he => ⟨rfl, rfl, .inr ⟨e, rfl, he.imp_right .inr⟩⟩)
    have hquiet := seats_quiet.yields_raiseIssue limits principal (raisable_quiet q) component
      root.projectKey
    have hfinds : c.Finds w root.projectKey :=
      ⟨component, root, hcomponent.symm, hroot.symm, rfl⟩
    exact (Script.Yields.attains_logging_permits hquiet rfl rfl).mono fun r s' h =>
      ⟨h.1, h.2.symm, hfinds⟩
  exact attains_recorded Mutated.result (Except.map .inl) Mutated.project hraise
    fun ⟨project, r⟩ => by cases r <;> rfl

theorem attains_reindex_logging (limits : ServiceLimits) (key : IssueKey) :
    ((issue (.reindex key)).script limits).Attains (logging w.audit)
      (fun r s' => (issue (.reindex key)).Leaves w r s'.2 s'.1.audit) (w, none) := by
  let c := issue (.reindex key)
  have hlocked : (locked key (.error .lockPoisoned)
      (do indexRow (← loadIssue key) : Attempt IssueDoc).run).Attains (logging w.audit)
      (fun r s' => s'.1.audit = w.audit ∧ c.Names w (r.map .inl) s'.2 none) (w, none) :=
    attains_locked_logging
      (R := fun (r : Except ServiceError IssueDoc) asked => c.Names w (r.map .inl) asked none)
      rfl ⟨rfl, .inl rfl⟩ fun t =>
        (Script.Yields.attains_logging (seats_quiet.edits key).yields_reindexLocked rfl).mono
          fun _ _ h => ⟨h.1, rfl, .inl rfl⟩
  exact attains_recorded id (Except.map .inl) (fun _ => none) hlocked fun r => by cases r <;> rfl

theorem attains_indexAll_logging (limits : ServiceLimits) :
    (indexAll.script limits).Attains (logging w.audit)
      (fun r s' => indexAll.Leaves w r s'.2 s'.1.audit) (w, none) := by
  have hrebuild : rebuild.run.Attains (logging w.audit) (fun r s' => s'.1.audit = w.audit ∧
      indexAll.Names w (r.map .inr) s'.2 none) (w, none) :=
    (Script.Yields.attains_logging seats_quiet.syncs.yields_rebuild rfl).mono
      fun _ _ h => ⟨h.1, rfl, .inl rfl⟩
  exact attains_recorded id (Except.map .inr) (fun _ => none) hrebuild fun r => by cases r <;> rfl

/-- Every call of the service leaves its event, whatever is disturbed in it. -/
theorem attains_script_logging (limits : ServiceLimits) (c : ServiceCall) (w : World) :
    (c.script limits).Attains (logging w.audit) (fun r s' => c.Leaves w r s'.2 s'.1.audit)
      (w, none) := by
  rcases c with (⟨principal, key, m⟩ | ⟨principal, q⟩ | key) | _
  · exact attains_change_logging limits principal key m
  · exact attains_create_logging limits principal q
  · exact attains_reindex_logging limits key
  · exact attains_indexAll_logging limits

/-- A call that returns leaves its event in the log, whatever fails in it. -/
theorem leaves_of_run {limits : ServiceLimits} {c : ServiceCall} {fs : List (Option Failure)}
    {r : Reply} {w' : World} (h : (c.script limits).run w fs = (.returned r, w')) :
    c.Leaves w r ((c.script limits).asked? w fs) w'.audit := by
  rcases (c.attains_script_logging limits w).runFrom_logging [] fs with
    ⟨r', v, hrun, hleaves⟩ | ⟨v, hrun, -⟩
  · obtain ⟨hr, rfl⟩ := Prod.mk.inj (hrun.symm.trans h)
    rw [Option.none_or] at hleaves
    exact Outcome.returned.inj hr ▸ hleaves
  · cases (Prod.mk.inj (hrun.symm.trans h)).1

/-- A call that breaks off leaves nothing in the log. -/
theorem audit_of_panic {limits : ServiceLimits} {c : ServiceCall} {fs : List (Option Failure)}
    {w' : World} (h : (c.script limits).run w fs = (.panicked, w')) : w'.audit = w.audit := by
  rcases (c.attains_script_logging limits w).runFrom_logging [] fs with
    ⟨r', v, hrun, -⟩ | ⟨v, hrun, haudit⟩
  · cases (Prod.mk.inj (hrun.symm.trans h)).1
  · exact (Prod.mk.inj (hrun.symm.trans h)).2 ▸ haudit

end ServiceCall

/-- A question leaves nothing in the log, whether it is answered or breaks off. -/
theorem AnyCall.audit_of_run {limits : ServiceLimits} {c : AnyCall} (hc : ∀ c', c ≠ .writing c')
    (w : World) (fs : List (Option Failure)) :
    ((c.script limits).run w fs).2.audit = w.audit := by
  have hquiet := Script.Yields.attains_logging (seats_quiet.yields_reading limits hc)
    (s := (w, none)) rfl
  rcases hquiet.runFrom_logging [] fs with ⟨r, w', hrun, haudit, -⟩ | ⟨w', hrun, haudit⟩
  · exact (congrArg (fun p => p.2.audit) hrun).trans haudit
  · exact (congrArg (fun p => p.2.audit) hrun).trans haudit

/-! ## Runs -/

/-- A call that has returned: the world before it, the call itself, its reply and the project that
it has asked the gate about. -/
structure LogDeed where
  world : World
  call : ServiceCall
  reply : Reply
  asked : Option ProjectKey

namespace LogDeed

/-- The event of the call. -/
def event (d : LogDeed) : AuditEvent := d.call.event d.reply (d.call.project? d.asked)

/-- Whether the event names the right project. -/
def IsResolved (d : LogDeed) : Prop := d.call.Resolves d.world d.reply (d.call.project? d.asked)

/-- Whether the line is that of the event of the call. -/
def Writes (d : LogDeed) (l : String) : Prop := d.IsResolved ∧ ∃ stamp, l = d.event.line stamp

/-- Whether the line is read as the event of the call. -/
def ToldBy (d : LogDeed) (l : String) : Prop :=
  d.IsResolved ∧ LogEntry.ofLine? l = some d.event.entry

end LogDeed

/-- A run of calls one after the other, disturbed in any way, from the world `w`: the calls of it
that have returned and are not mere questions, and the world after it.  In between all but the log
may be exchanged, and the file of the log may be opened anew. -/
inductive LoggedRun (w : World) : List LogDeed → World → Prop
  | start : LoggedRun w [] w
  | returned {ds : List LogDeed} {w₁ w₂ : World} {limits : ServiceLimits} {c : ServiceCall}
      {fs : List (Option Failure)} {r : Reply} (h : LoggedRun w ds w₁)
      (hrun : (c.script limits).run w₁ fs = (.returned r, w₂)) :
      LoggedRun w (ds ++ [⟨w₁, c, r, (c.script limits).asked? w₁ fs⟩]) w₂
  | panicked {ds : List LogDeed} {w₁ w₂ : World} {limits : ServiceLimits} {c : ServiceCall}
      {fs : List (Option Failure)} (h : LoggedRun w ds w₁)
      (hrun : (c.script limits).run w₁ fs = (.panicked, w₂)) : LoggedRun w ds w₂
  | asked {ds : List LogDeed} {w₁ : World} {limits : ServiceLimits} {c : AnyCall}
      (h : LoggedRun w ds w₁) (hc : ∀ c', c ≠ .writing c') (fs : List (Option Failure)) :
      LoggedRun w ds ((c.script limits).run w₁ fs).2
  | others {ds : List LogDeed} {w₁ w₂ : World} (h : LoggedRun w ds w₁)
      (haudit : w₂.audit = w₁.audit) : LoggedRun w ds w₂
  | opened {ds : List LogDeed} {w₁ : World} {content : ByteArray} {c : Config} {f : Files}
      {path : String} {place : List String} {sink : AuditSink} (h : LoggedRun w ds w₁)
      (hcontent : w₁.audit = .file content) (hsink : c.audit.sink = .file)
      (hpath : c.audit.path = some path) (hplace : f.writable? ⟨path⟩ = some place)
      (hfile : f.get? place = some (.file content)) (hopen : c.openSink f = .ok sink) :
      LoggedRun w ds { w₁ with audit := sink }

theorem forall₂_concat {α β : Type} {R : α → β → Prop} {xs : List α} {ys : List β} {x : α} {y : β}
    (h : List.Forall₂ R xs ys) (hxy : R x y) : List.Forall₂ R (xs ++ [x]) (ys ++ [y]) := by
  induction h with
  | nil => exact .cons hxy .nil
  | cons h _ ih => exact .cons h ih

/-- A file that is opened goes on with what it holds. -/
theorem openSink_eq_file {c : Config} {f : Files} {path : String} {place : List String}
    {content : ByteArray} (hsink : c.audit.sink = .file) (hpath : c.audit.path = some path)
    (hplace : f.writable? ⟨path⟩ = some place) (hfile : f.get? place = some (.file content)) :
    c.openSink f = .ok (.file content) := by
  simp only [Config.openSink, hsink, hpath, hplace, hfile]

variable {w w' : World} {content : ByteArray} {ds : List LogDeed}

theorem LoggedRun.exists_lines (hrun : LoggedRun w ds w') (hfile : w.audit = .file content) :
    ∃ lines, w'.audit = .file (content ++ (Text.joinLines lines).toUTF8) ∧
      List.Forall₂ LogDeed.Writes ds lines := by
  induction hrun with
  | start => exact ⟨[], by simpa [Text.joinLines] using hfile, .nil⟩
  | returned _ hrun ih =>
    obtain ⟨lines, haudit, hlines⟩ := ih
    obtain ⟨hresolved, stamp, hrecord⟩ := ServiceCall.leaves_of_run hrun
    rw [haudit, AuditSink.record_file] at hrecord
    exact ⟨_, hrecord, forall₂_concat hlines ⟨hresolved, stamp, rfl⟩⟩
  | panicked _ hrun ih =>
    obtain ⟨lines, haudit, hlines⟩ := ih
    exact ⟨lines, (ServiceCall.audit_of_panic hrun).trans haudit, hlines⟩
  | asked _ hc fs ih =>
    obtain ⟨lines, haudit, hlines⟩ := ih
    exact ⟨lines, (AnyCall.audit_of_run hc _ fs).trans haudit, hlines⟩
  | others _ heq ih =>
    obtain ⟨lines, haudit, hlines⟩ := ih
    exact ⟨lines, heq.trans haudit, hlines⟩
  | opened _ hcontent hsink hpath hplace hfile hopen ih =>
    obtain ⟨lines, haudit, hlines⟩ := ih
    have hsame := openSink_eq_file hsink hpath hplace hfile
    refine ⟨lines, ?_, hlines⟩
    rw [← haudit, hcontent]
    exact Except.ok.inj (hopen.symm.trans hsame)

/-- Over every run, the file of the log is what it was, followed by one line for each call that has
returned and is not a mere question, in the order of the calls.  A line has no control character in
it, and so the text is cut into just these lines, and each is read as the event of its call, with
the project that the call has asked the gate about. -/
theorem log_follows_calls (hfile : w.audit = .file content) (hrun : LoggedRun w ds w') :
    ∃ lines, w'.audit = .file (content ++ (Text.joinLines lines).toUTF8) ∧
      (∀ l ∈ lines, ∀ c ∈ l.toList, 0x20 ≤ c.toNat) ∧
      Text.cutLines (Text.joinLines lines) = lines ∧ List.Forall₂ LogDeed.ToldBy ds lines := by
  obtain ⟨lines, haudit, hlines⟩ := hrun.exists_lines hfile
  have hprinted : ∀ l ∈ lines, ∀ c ∈ l.toList, 0x20 ≤ c.toNat := by
    intro l hl
    obtain ⟨d, -, -, stamp, rfl⟩ := exists_mem_of_forall₂ hlines.flip hl
    exact fun c => AuditEvent.space_le_of_mem_line
  refine ⟨lines, haudit, hprinted, Text.cutLines_joinLines fun l hl hend => ?_, ?_⟩
  · exact absurd (hprinted l hl _ hend) (by decide)
  · refine hlines.imp fun d l hl => ?_
    obtain ⟨hresolved, stamp, rfl⟩ := hl
    exact ⟨hresolved, AuditEvent.ofLine?_line _ stamp⟩

/-- A change whose key and login are written to pass for lines of their own. -/
def forgery : ServiceCall :=
  .issue (.change ⟨⟨"ada\"\n"⟩, []⟩ ⟨"A\r\n\"\\\x01"⟩ (.setSeverity .blocker))

/-- The files of a log. -/
def logFiles (content : ByteArray) : Files :=
  ⟨.dir [("work", .dir [("audit.jsonl", .file content)])], ["work"]⟩

/-- Three calls on a file that holds a text and is opened anew after the first: a change of no
issue, a rebuilding of the index, and, with everything else exchanged, a creation whose rule is not
to be had when its project has been found. -/
theorem log_follows_calls_sample :
    ∃ ds w' lines, LoggedRun { audit := .file "old".toUTF8 } ds w' ∧
      w'.audit = .file ("old".toUTF8 ++ (Text.joinLines lines).toUTF8) ∧
      Text.cutLines (Text.joinLines lines) = lines ∧
      lines.map LogEntry.ofLine? = [
        some ⟨"issue_mutation", "set_severity", some "A\r\n\"\\\x01", some "ada\"\n", none,
          "rejected", some "not_found"⟩,
        some ⟨"reindex", "index_all", none, none, none, "applied", none⟩,
        some ⟨"issue_mutation", "create_manual_issue", none, some "gandalf", some "sample",
          "failed", some "catalog_unavailable"⟩] := by
  let w : World := { audit := .file "old".toUTF8 }
  let w₁ := ((forgery.script {}).run w []).2
  have hfirst : (forgery.script {}).run w [] =
      (.returned (.error (.unknownIssue ⟨"A\r\n\"\\\x01"⟩)), w₁) := rfl
  have hrun₁ := LoggedRun.returned .start hfirst
  obtain ⟨lines₁, haudit₁, -⟩ := log_follows_calls rfl hrun₁
  let content := "old".toUTF8 ++ (Text.joinLines lines₁).toUTF8
  let w₂ : World := { w₁ with audit := .file content }
  have hopened : LoggedRun w _ w₂ :=
    .opened (c := { audit := ⟨.file, some "audit.jsonl"⟩ }) (f := logFiles content) hrun₁ haudit₁
      rfl rfl (show _ = some ["work", "audit.jsonl"] from rfl) rfl rfl
  have hsecond : (ServiceCall.indexAll.script {}).run w₂ [] =
      (.returned (.ok (.inr 0)), ((ServiceCall.indexAll.script {}).run w₂ []).2) := rfl
  have hrun₂ := hopened.returned hsecond
  obtain ⟨lines₂, haudit₂, -⟩ := log_follows_calls rfl hrun₂
  let w₃ : World :=
    { World.sample with audit := .file ("old".toUTF8 ++ (Text.joinLines lines₂).toUTF8) }
  have hexchanged : LoggedRun w _ w₃ := hrun₂.others haudit₂.symm
  let creation := ServiceCall.issue sampleCreation
  let fs : List (Option Failure) := [none, none, none, some (.catalog ⟨"down"⟩)]
  have hthird : (creation.script {}).run w₃ fs =
      (.returned (.error (.catalog ⟨"down"⟩)), ((creation.script {}).run w₃ fs).2) := rfl
  have hrun := hexchanged.returned hthird
  obtain ⟨lines, haudit, -, hcut, htold⟩ := log_follows_calls rfl hrun
  refine ⟨_, _, lines, hrun, haudit, hcut, ?_⟩
  obtain ⟨l₁, _, ⟨-, hline₁⟩, hrest₁, rfl⟩ := List.forall₂_cons_left_iff.1 htold
  obtain ⟨l₂, _, ⟨-, hline₂⟩, hrest₂, rfl⟩ := List.forall₂_cons_left_iff.1 hrest₁
  obtain ⟨l₃, _, ⟨-, hline₃⟩, hnil, rfl⟩ := List.forall₂_cons_left_iff.1 hrest₂
  obtain rfl := List.forall₂_nil_left_iff.1 hnil
  rw [List.map_cons, hline₁, List.map_cons, hline₂, List.map_singleton, hline₃]
  rfl

end Service

end Triage
