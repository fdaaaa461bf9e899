import Triage.Proofs.Search.Ranking
import Triage.Proofs.Service.KeySource

/-!
# What a manual issue asks for

A manual issue is raised if its component and its project are known, the caller is permitted to, the
rule is a manual one, and its fields keep to their bounds.  Otherwise the first of these that is
missing is the error, and the error of the fields lists all that are out of bounds.
-/

namespace Triage

/-! ## Fields -/

namespace FieldError

/-- The place of the field among those that are checked. -/
def place : FieldError → Nat
  | .line _ => 0
  | .effort _ => 1
  | .message _ => 2

end FieldError

namespace ManualIssueRequest

/-- Whether a line is one that a row can have. -/
def LineFits (n : Int64) : Prop := 1 ≤ n.toInt ∧ n.toInt ≤ 4294967295

/-- Whether an effort is a number from zero up. -/
def EffortFits (x : Binary64) : Prop := x.isFinite = true ∧ x.belowZero = false

/-- Whether all fields keep to their bounds. -/
structure Fits (q : ManualIssueRequest) (maxMessageLength : Nat) : Prop where
  line : ∀ n ∈ q.line, LineFits n
  effort : ∀ x ∈ q.effortToFix, EffortFits x
  message : ∀ m ∈ q.message, m.length ≤ maxMessageLength

/-- Whether the field is out of bounds. -/
def Rejects (q : ManualIssueRequest) (maxMessageLength : Nat) : FieldError → Prop
  | .line n => n ∈ q.line ∧ ¬LineFits n
  | .effort x => x ∈ q.effortToFix ∧ ¬EffortFits x
  | .message n => n = maxMessageLength ∧ ∃ m ∈ q.message, maxMessageLength < m.length

/-- Whether a list has just the fields that are out of bounds, in their order. -/
structure Faults (q : ManualIssueRequest) (maxMessageLength : Nat) (es : List FieldError) :
    Prop where
  mem_iff : ∀ e, e ∈ es ↔ q.Rejects maxMessageLength e
  ordered : es.Pairwise (·.place < ·.place)

variable {q : ManualIssueRequest} {max : Nat} {e : FieldError} {es es' : List FieldError}

theorem storedLine?_eq_some {n : Int64} (hn : q.line = some n) (h : LineFits n) :
    q.storedLine? = some (some (UInt32.ofNat n.toInt.toNat)) := by
  unfold storedLine?
  rw [hn]
  exact if_pos ⟨h.1, Int.lt_of_le_of_lt h.2 (by decide)⟩

theorem lineError?_eq_some :
    q.lineError? = some e ↔ ∃ n ∈ q.line, ¬LineFits n ∧ e = .line n := by
  rcases hn : q.line with _ | n
  · simp [lineError?, storedLine?, hn]
  by_cases h : LineFits n
  · simp [lineError?, storedLine?_eq_some hn h, h]
  · have hnone : q.storedLine? = none := by
      unfold storedLine?
      rw [hn]
      exact if_neg fun hin => h ⟨hin.1, Int.le_of_lt_add_one hin.2⟩
    simp [lineError?, hnone, hn, h, eq_comm]

theorem not_effortFits_iff {x : Binary64} :
    ¬EffortFits x ↔ (!x.isFinite || x.belowZero) = true := by
  unfold EffortFits
  cases x.isFinite <;> cases x.belowZero <;> simp

theorem effortError?_eq_some :
    q.effortError? = some e ↔ ∃ x ∈ q.effortToFix, ¬EffortFits x ∧ e = .effort x := by
  unfold effortError?
  simp only [Option.map_eq_some_iff, Option.filter_eq_some_iff, not_effortFits_iff, and_assoc,
    Option.mem_def, eq_comm (a := e)]

theorem messageError?_eq_some :
    q.messageError? max = some e ↔ ∃ m ∈ q.message, max < m.length ∧ e = .message max := by
  unfold messageError?
  simp only [Option.map_eq_some_iff, Option.filter_eq_some_iff, decide_eq_true_eq, and_assoc,
    Option.mem_def, eq_comm (a := e)]

theorem mem_fieldErrors {limits : ServiceLimits} : e ∈ q.fieldErrors limits ↔
    q.lineError? = some e ∨ q.effortError? = some e ∨
      q.messageError? limits.maxMessageLength = some e := by
  simp only [fieldErrors, List.mem_filterMap, List.mem_cons, List.not_mem_nil, or_false, id,
    exists_eq_right, eq_comm (a := some e)]

theorem faults_fieldErrors (q : ManualIssueRequest) (limits : ServiceLimits) :
    q.Faults limits.maxMessageLength (q.fieldErrors limits) where
  mem_iff e := by
    rw [mem_fieldErrors, lineError?_eq_some, effortError?_eq_some, messageError?_eq_some]
    cases e with
    | line n => simp [Rejects]
    | effort x => simp [Rejects]
    | message n => simp [Rejects, ← exists_and_left, and_comm, and_left_comm]
  ordered := by
    have hline : ∀ e, q.lineError? = some e → e.place = 0 := fun e he => by
      obtain ⟨n, -, -, rfl⟩ := lineError?_eq_some.1 he
      rfl
    have heffort : ∀ e, q.effortError? = some e → e.place = 1 := fun e he => by
      obtain ⟨x, -, -, rfl⟩ := effortError?_eq_some.1 he
      rfl
    have hmessage : ∀ e, q.messageError? limits.maxMessageLength = some e → e.place = 2 :=
      fun e he => by
        obtain ⟨m, -, -, rfl⟩ := messageError?_eq_some.1 he
        rfl
    refine List.pairwise_filterMap.2 (.cons ?_ (.cons ?_ (List.pairwise_singleton _ _)))
    · intro o ho e he e' he'
      rw [hline e he]
      rcases List.mem_pair.1 ho with rfl | rfl
      · rw [heffort e' he']
        decide
      · rw [hmessage e' he']
        decide
    · intro o ho e he e' he'
      obtain rfl := List.mem_singleton.1 ho
      rw [heffort e he, hmessage e' he']
      decide

theorem isRanking_place : IsRanking fun e e' : FieldError => e.place < e'.place where
  asymm := Nat.lt_asymm
  negTrans hba hcb := by omega

theorem Faults.unique (h : q.Faults max es) (h' : q.Faults max es') : es = es' :=
  isRanking_place.eq_of_mem_iff h.ordered h'.ordered fun e =>
    (h.mem_iff e).trans (h'.mem_iff e).symm

theorem fits_iff : q.Fits max ↔ ∀ e, ¬q.Rejects max e := by
  constructor
  · rintro h (n | x | n)
    · exact fun hn => hn.2 (h.line n hn.1)
    · exact fun hx => hx.2 (h.effort x hx.1)
    · rintro ⟨-, m, hm, hlong⟩
      exact absurd (h.message m hm) (Nat.not_le.2 hlong)
  · intro h
    refine ⟨fun n hn => ?_, fun x hx => ?_, fun m hm => ?_⟩
    · exact by_contra fun hout => h (.line n) ⟨hn, hout⟩
    · exact by_contra fun hout => h (.effort x) ⟨hx, hout⟩
    · exact Nat.le_of_not_lt fun hlong => h (.message max) ⟨rfl, m, hm, hlong⟩

theorem Faults.eq_nil_iff (h : q.Faults max es) : es = [] ↔ q.Fits max := by
  rw [fits_iff, List.eq_nil_iff_forall_not_mem]
  exact forall_congr' fun e => not_congr (h.mem_iff e)

/-! ## The row -/

/-- The message to store: the one that is asked for, or the name of the rule if that is missing or
blank. -/
def storedMessage (q : ManualIssueRequest) (rule : Rule) : String :=
  match q.message with
  | none => rule.name
  | some m => if Text.allBlank m then rule.name else m

/-- The row of a manual issue that is stored at `now`. -/
def row (q : ManualIssueRequest) (key : IssueKey) (component : Component) (rule : Rule)
    (reporter : Login) (now : Timestamp) : Issue where
  key := key
  ruleKey := rule.key
  severity := q.severity.getD .major
  componentKey := component.key
  componentUuid := component.uuid
  projectUuid := component.projectUuid
  line := q.line.map fun n => UInt32.ofNat n.toInt.toNat
  effortToFix := q.effortToFix
  status := .opened
  resolution := none
  assignee := none
  actionPlanKey := none
  tags := ∅
  message := some (q.storedMessage rule)
  reporter := some reporter
  createdAt := now
  updatedAt := now

variable {key : IssueKey} {component : Component} {rule : Rule} {reporter : Login}
  {now : Timestamp}

/-- The line of the row is the number that is asked for. -/
theorem Fits.toNat_line (h : q.Fits max) :
    (q.row key component rule reporter now).line.map (fun l => (l.toNat : Int)) =
      q.line.map (·.toInt) := by
  rcases hn : q.line with _ | n
  · simp [row, hn]
  · have hfits : LineFits n := h.line n hn
    have hlt : n.toInt.toNat < UInt32.size := by
      have hmax := hfits.2
      rw [UInt32.size]
      omega
    have hvalue : ((UInt32.ofNat n.toInt.toNat).toNat : Int) = n.toInt := by
      rw [UInt32.toNat_ofNat_of_lt' hlt, Int.toNat_of_nonneg (Int.le_of_lt hfits.1)]
    simp only [row, hn, Option.map_some, hvalue]

theorem getD_message (q : ManualIssueRequest) (rule : Rule) :
    (q.message.filter fun m => !Text.allBlank m).getD rule.name = q.storedMessage rule := by
  unfold storedMessage
  rcases q.message with _ | m
  · rfl
  · cases hblank : Text.allBlank m <;> simp [Option.filter_some, hblank]

theorem Fits.inserted_issue (h : q.Fits max) :
    (q.issue key component rule reporter).inserted now = q.row key component rule reporter now := by
  have hline : q.storedLine?.join = q.line.map fun n => UInt32.ofNat n.toInt.toNat := by
    rcases hn : q.line with _ | n
    · simp [storedLine?, hn]
    · rw [storedLine?_eq_some hn (h.line n hn)]
      rfl
  simp only [issue, Issue.inserted, Issue.fresh, row, hline, getD_message]

end ManualIssueRequest

/-! ## Stages -/

namespace Service

variable {w : World} {limits : ServiceLimits} {principal : Principal} {q : ManualIssueRequest}
  {component project : Component} {rule : Rule}

/-- Whether the component of the request and its project are known. -/
structure Located (w : World) (q : ManualIssueRequest) (component project : Component) : Prop where
  known : w.catalog.component? q.componentKey = some component
  resolves : w.catalog.project? component.projectUuid = some project

/-- Whether besides the caller is permitted to create issues in the project. -/
structure Admitted (w : World) (principal : Principal) (q : ManualIssueRequest)
    (component project : Component) : Prop extends Located w q component project where
  permits : w.gate.permits principal .createManualIssue project.projectKey = true

/-- Whether besides the rule is known and a manual one. -/
structure Ruled (w : World) (principal : Principal) (q : ManualIssueRequest)
    (component project : Component) (rule : Rule) : Prop
    extends Admitted w principal q component project where
  ruleKnown : w.catalog.rules.get? q.ruleKey = some rule
  manual : rule.manual = true

/-- Whether besides all fields keep to their bounds. -/
structure Accepted (limits : ServiceLimits) (principal : Principal) (q : ManualIssueRequest)
    (w : World) (component project : Component) (rule : Rule) : Prop
    extends Ruled w principal q component project rule where
  fits : q.Fits limits.maxMessageLength

/-- Why a creation is refused before anything is stored, with the project if it is known by then:
the first stage that fails decides. -/
inductive Refused (limits : ServiceLimits) (principal : Principal) (q : ManualIssueRequest)
    (w : World) : Option ProjectKey → ServiceError → Prop
  | unknownComponent (h : w.catalog.component? q.componentKey = none) :
    Refused limits principal q w none (.unknownComponent q.componentKey)
  | unknownProject {component : Component}
    (hc : w.catalog.component? q.componentKey = some component)
    (h : w.catalog.project? component.projectUuid = none) :
    Refused limits principal q w none (.unknownProject component.projectUuid)
  | forbidden {component project : Component} (hl : Located w q component project)
    (h : w.gate.permits principal .createManualIssue project.projectKey = false) :
    Refused limits principal q w (some project.projectKey) .forbidden
  | unknownRule {component project : Component} (ha : Admitted w principal q component project)
    (h : w.catalog.rules.get? q.ruleKey = none) :
    Refused limits principal q w (some project.projectKey) (.unknownRule q.ruleKey)
  | ruleNotManual {component project : Component} {rule : Rule}
    (ha : Admitted w principal q component project)
    (hr : w.catalog.rules.get? q.ruleKey = some rule) (h : rule.manual = false) :
    Refused limits principal q w (some project.projectKey) (.ruleNotManual rule.key)
  | fields {component project : Component} {rule : Rule} {es : List FieldError}
    (hr : Ruled w principal q component project rule)
    (hes : q.Faults limits.maxMessageLength es) (h : es ≠ []) :
    Refused limits principal q w (some project.projectKey) (.fields es)

end Service

end Triage
