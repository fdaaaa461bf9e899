import Mathlib.Algebra.Ring.Int.Defs
import Mathlib.Algebra.Ring.Nat
import Mathlib.Data.List.Forall2
import Triage.Codec.Issue
import Triage.Proofs.Json.Read
import Triage.Proofs.TextSet

/-!
# JSON forms are read as they are written

The form of a value is read as that value, and so is its text.  Efforts are the exception: their
digits may be read as another number, and an issue is then read as one with that effort.
-/

namespace Triage

/-- Whether `a` has a written form that is read as `b`. -/
structure ReadsAs {α : Type} [JsonForm α] (a b : α) : Prop where
  proper : (toJson a).Proper
  read : JsonForm.ofJson? (toJson a) = some b

/-- A type whose values are read as they are written, each from a form that is not `null`. -/
class ExactForm (α : Type) [JsonForm α] : Prop where
  readsAs : ∀ a : α, ReadsAs a a
  present : ∀ a : α, toJson a ≠ .null

variable {α : Type} [JsonForm α]

theorem ReadsAs.ofJsonText? {a b : α} (h : ReadsAs a b) : ofJsonText? (jsonText a) = some b := by
  rw [Triage.ofJsonText?, jsonText, Json.parse?_print h.proper]
  exact h.read

/-- The bytes of a text encode what the text is. -/
theorem ofJsonBytes?_toUTF8 (s : String) : (ofJsonBytes? s.toUTF8 : Option α) = ofJsonText? s := by
  rw [ofJsonBytes?, Json.parseBytes?_toUTF8, Triage.ofJsonText?]

/-- A member that no field takes is passed over, also with a byte that belongs to no character. -/
example : (ofJsonBytes? ("\x7b\"by\":\"".toUTF8.push 0xFF ++ "\",\"field\":\"tags\"\x7d".toUTF8) :
    Option FieldDiff) = some ⟨"tags", none, none⟩ := by
  decide +kernel

/-! ## Words and numbers -/

namespace Json

theorem proper_token {j : Json} {t : Token} (hj : j.tokens = [t]) (ht : t.Proper) : j.Proper := by
  intro t' ht'
  rw [hj, List.mem_singleton] at ht'
  exact ht' ▸ ht

theorem proper_null : Json.null.Proper := proper_token rfl trivial

theorem proper_text (s : String) : (text s).Proper := proper_token rfl rfl

theorem proper_int (i : Int) : (int i).Proper := proper_token rfl (by nofun : ∀ c ∈ [], _)

theorem int?_int (i : Int) : (int i).int? = some i := by
  have hproper : (!(decide (i < 0) && i.natAbs == 0)) = true := by
    simp only [Bool.not_eq_true', Bool.and_eq_false_iff, decide_eq_false_iff_not,
      beq_eq_false_iff_ne]
    omega
  have hsign : (if decide (i < 0) = true then -(i.natAbs : Int) else i.natAbs) = i := by
    simp only [decide_eq_true_eq]
    split_ifs <;> omega
  simp only [int, int?, JsonNumber.ofInt, JsonNumber.toInt?, List.isEmpty_nil, Option.isNone_none,
    Bool.true_and, hproper, if_true, hsign]

theorem natBelow?_nat {width n : Nat} (hn : n < 2 ^ width) :
    (nat n).natBelow? width = some n := by
  have hint : (nat n).int? = some (n : Int) := int?_int n
  have hbound : (0 : Int) ≤ n ∧ (n : Int) < Int.pow 2 width := by
    have hcast : (n : Int) < (2 : Int) ^ width := by exact_mod_cast hn
    exact ⟨Int.natCast_nonneg n, hcast⟩
  simp only [natBelow?, hint, Option.bind_eq_bind, Option.bind_some, if_pos hbound,
    Int.toNat_natCast]

end Json

instance : ExactForm String where
  readsAs s := ⟨Json.proper_text s, rfl⟩
  present _ := nofun

instance {k : IdKind} : ExactForm (Id k) where
  readsAs i := ⟨Json.proper_text i.text, rfl⟩
  present _ := nofun

instance : ExactForm UInt32 where
  readsAs n := by
    refine ⟨Json.proper_int n.toNat, ?_⟩
    have hn : (Json.nat n.toNat).natBelow? 32 = some n.toNat := Json.natBelow?_nat n.toNat_lt
    simp [JsonForm.ofJson?, toJson, hn]
  present _ := nofun

instance : ExactForm Timestamp where
  readsAs t := by
    refine ⟨Json.proper_int t.millis.toInt, ?_⟩
    have hmillis : (Json.int t.millis.toInt).int64? = some t.millis := by
      rw [Json.int64?, Json.int?_int, Option.bind_eq_bind, Option.bind_some,
        if_pos ⟨t.millis.minValue_le_toInt, t.millis.toInt_le⟩, Int64.ofInt_toInt]
    simp [JsonForm.ofJson?, toJson, hmillis]
  present _ := nofun

theorem ExactForm.ofLabels (α : Type) [Label α] (h : ∀ a : α, Label.ofLabel? (label a) = some a) :
    @ExactForm α (JsonForm.ofLabels α) :=
  let _ := JsonForm.ofLabels α
  { readsAs := fun a => ⟨Json.proper_text (label a), h a⟩
    present := fun _ => nofun }

instance : ExactForm Severity := .ofLabels _ Severity.ofLabel?_label

instance : ExactForm Status := .ofLabels _ Status.ofLabel?_label

instance : ExactForm Resolution := .ofLabels _ Resolution.ofLabel?_label

/-! ## Lists and options -/

theorem option_mapM_eq_some {α β : Type} {f : α → Option β} {xs : List α} {ys : List β} :
    xs.mapM f = some ys ↔ List.Forall₂ (fun x y => f x = some y) xs ys := by
  induction xs generalizing ys with
  | nil => simp [eq_comm]
  | cons x xs ih =>
    simp only [List.mapM_cons, List.forall₂_cons_left_iff, ← ih, Option.bind_eq_bind,
      Option.bind_eq_some_iff, Option.pure_def, Option.some.injEq]
    constructor
    · rintro ⟨y, hy, ys', hys, rfl⟩
      exact ⟨y, ys', hy, hys, rfl⟩
    · rintro ⟨y, ys', hy, hys, rfl⟩
      exact ⟨y, hy, ys', hys, rfl⟩

theorem proper_list {xs : List α} (h : ∀ x ∈ xs, (toJson x).Proper) : (toJson xs).Proper := by
  refine Json.proper_array fun j hj => ?_
  obtain ⟨x, hx, rfl⟩ := List.mem_map.1 hj
  exact h x hx

theorem readsAs_list {xs : List α} (h : ∀ x ∈ xs, ReadsAs x x) : ReadsAs xs xs where
  proper := proper_list fun x hx => (h x hx).proper
  read := option_mapM_eq_some.2
    (List.forall₂_map_left_iff.2 (List.forall₂_same.2 fun x hx => (h x hx).read))

instance [ExactForm α] : ExactForm (List α) where
  readsAs _ := readsAs_list fun x _ => ExactForm.readsAs x
  present _ := nofun

theorem ReadsAs.some {a b : α} (h : ReadsAs a b) (ha : toJson a ≠ .null) :
    ReadsAs (some a) (some b) := by
  refine ⟨h.proper, ?_⟩
  have hpresent : (toJson a).present? = Option.some (toJson a) := by
    unfold Json.present?
    split
    · contradiction
    · rfl
  have hread : Json.nullable? JsonForm.ofJson? (toJson a) = Option.some (Option.some b) := by
    simp [Json.nullable?, hpresent, h.read]
  exact hread

theorem readsAs_none : ReadsAs (none : Option α) none := ⟨Json.proper_null, rfl⟩

theorem readsAs_option [ExactForm α] (o : Option α) : ReadsAs o o := by
  rcases o with _ | a
  · exact readsAs_none
  · exact (ExactForm.readsAs a).some (ExactForm.present a)

instance : ExactForm TextSet where
  readsAs s := by
    have hlist := ExactForm.readsAs s.toList
    refine ⟨hlist.proper, ?_⟩
    have hread : (JsonForm.ofJson? (toJson s.toList)).map TextSet.ofList = some s := by
      rw [hlist.read, Option.map_some, TextSet.ofList_toList]
    exact hread
  present _ := nofun

/-! ## Records -/

namespace Json

theorem namedMembers?_map (members : List (String × Json)) :
    namedMembers? (members.map fun m => (some m.1, m.2)) = some members := by
  unfold namedMembers?
  induction members with
  | nil => rfl
  | cons m members ih =>
    rw [List.map_cons, List.mapM_cons, ih]
    rfl

/-- An object with exactly the members of a record is read as it. -/
theorem record?_record {shape : RecordShape} {members : List (String × Json)}
    (h : members.map (·.1) = shape.fields) (hn : shape.fields.Nodup) :
    (record members).record? shape = some ⟨members⟩ := by
  have hknown : (members.filter fun m => shape.fields.contains m.1) = members := by
    refine List.filter_eq_self.2 fun m hm => ?_
    rw [← h]
    simpa using ⟨m.2, hm⟩
  rw [record, record?, namedMembers?_map, Option.bind_some, RecordShape.ofTable?, hknown, h]
  exact if_pos hn

end Json

namespace Record

variable {r : Record Json} {name : String} {a b : α}

theorem field_of_get? (h : r.get? name = some (toJson a)) (hab : ReadsAs a b) :
    r.field name = some b := by
  rw [field, required, h]
  exact hab.read

theorem optionalField_of_get? {a b : Option α} (h : r.get? name = some (toJson a))
    (hab : ReadsAs a b) : r.optionalField name = some b := by
  rw [optionalField, withDefault, h]
  exact hab.read

end Record

/-! ## Changelog entries -/

instance : ExactForm FieldDiff where
  readsAs d := by
    let members := [("field", toJson d.field), ("old_value", toJson d.oldValue),
      ("new_value", toJson d.newValue)]
    have hrecord : (toJson d).record? (.ofFields ["field", "old_value", "new_value"]) =
        some ⟨members⟩ := Json.record?_record rfl (by decide)
    refine ⟨Json.proper_record ?_, ?_⟩
    · simp only [List.forall_mem_cons]
      exact ⟨(ExactForm.readsAs _).proper, (readsAs_option _).proper, (readsAs_option _).proper,
        nofun⟩
    · have hfield : Record.field ⟨members⟩ "field" = some d.field :=
        Record.field_of_get? rfl (ExactForm.readsAs _)
      have hold : Record.optionalField ⟨members⟩ "old_value" = some d.oldValue :=
        Record.optionalField_of_get? rfl (readsAs_option _)
      have hnew : Record.optionalField ⟨members⟩ "new_value" = some d.newValue :=
        Record.optionalField_of_get? rfl (readsAs_option _)
      simp [JsonForm.ofJson?, hrecord, hfield, hold, hnew]
  present _ := nofun

instance : ExactForm IssueChange where
  readsAs c := by
    let members := [("issue_key", toJson c.issueKey), ("user", toJson c.user),
      ("created_at", toJson c.createdAt), ("diffs", toJson c.diffs)]
    have hrecord : (toJson c).record? (.ofFields ["issue_key", "user", "created_at", "diffs"]) =
        some ⟨members⟩ := Json.record?_record rfl (by decide)
    refine ⟨Json.proper_record ?_, ?_⟩
    · simp only [List.forall_mem_cons]
      exact ⟨(ExactForm.readsAs _).proper, (ExactForm.readsAs _).proper,
        (ExactForm.readsAs _).proper, (ExactForm.readsAs _).proper, nofun⟩
    · have hkey : Record.field ⟨members⟩ "issue_key" = some c.issueKey :=
        Record.field_of_get? rfl (ExactForm.readsAs _)
      have huser : Record.field ⟨members⟩ "user" = some c.user :=
        Record.field_of_get? rfl (ExactForm.readsAs _)
      have hcreated : Record.field ⟨members⟩ "created_at" = some c.createdAt :=
        Record.field_of_get? rfl (ExactForm.readsAs _)
      have hdiffs : Record.field ⟨members⟩ "diffs" = some c.diffs :=
        Record.field_of_get? rfl (ExactForm.readsAs _)
      simp [JsonForm.ofJson?, hrecord, hkey, huser, hcreated, hdiffs]
  present _ := nofun

/-! ## Issues -/

theorem proper_numeral (negative : Bool) (x : Binary64) :
    JsonNumber.Proper ⟨negative, Decimal.Style.data.numeral x⟩ := by
  intro c hc
  have hdigits (n : Nat) : ∀ c ∈ Decimal.digitsOf n, c.isDigit = true :=
    fun _ => Decimal.isDigit_of_mem_digitsOf
  simp only [Decimal.Style.numeral] at hc
  split at hc
  · unfold Decimal.toPositional at hc
    dsimp only at hc
    split at hc
    · rcases List.mem_singleton.1 hc
      rfl
    · split at hc
      · exact hdigits _ c (List.mem_of_mem_drop hc)
      · rcases List.mem_append.1 hc with hc | hc
        · rw [(List.mem_replicate.1 hc).2]
          rfl
        · exact hdigits _ c hc
  · exact hdigits _ c (List.mem_of_mem_drop hc)

theorem proper_binary64 (x : Binary64) : (toJson x).Proper := by
  have hform : (Json.binary64 x).Proper := by
    unfold Json.binary64
    split
    · exact Json.proper_token rfl (proper_numeral _ x)
    · exact Json.proper_null
  exact hform

/-- The members of the object of an issue. -/
def IssueFields.members (f : IssueFields) : List (String × Json) := [
  ("key", toJson f.key),
  ("rule_key", toJson f.ruleKey),
  ("severity", toJson f.severity),
  ("component_key", toJson f.componentKey),
  ("component_uuid", toJson f.componentUuid),
  ("project_uuid", toJson f.projectUuid),
  ("line", toJson f.line),
  ("effort_to_fix", toJson f.effortToFix),
  ("status", toJson f.status),
  ("resolution", toJson f.resolution),
  ("assignee", toJson f.assignee),
  ("action_plan_key", toJson f.actionPlanKey),
  ("tags", toJson f.tags),
  ("message", toJson f.message),
  ("reporter", toJson f.reporter),
  ("created_at", toJson f.createdAt),
  ("updated_at", toJson f.updatedAt)]

section Fields

variable {f : IssueFields} {effort : Option Binary64}

theorem IssueFields.proper_json (h : (toJson f.effortToFix).Proper) : f.json.Proper := by
  have hexact {α : Type} [JsonForm α] [ExactForm α] (a : α) : (toJson a).Proper :=
    (ExactForm.readsAs a).proper
  have hoption {α : Type} [JsonForm α] [ExactForm α] (o : Option α) : (toJson o).Proper :=
    (readsAs_option o).proper
  have hmembers : ∀ m ∈ f.members, m.2.Proper := by simp [members, hexact, hoption, h]
  exact Json.proper_record hmembers

theorem IssueFields.ofRecord?_members (h : ReadsAs f.effortToFix effort) :
    ofRecord? ⟨f.members⟩ = some { f with effortToFix := effort } := by
  have hfield {α : Type} [JsonForm α] [ExactForm α] (name : String) (a : α)
      (hget : Record.get? ⟨f.members⟩ name = some (toJson a)) :
      Record.field ⟨f.members⟩ name = some a :=
    Record.field_of_get? hget (ExactForm.readsAs a)
  have hoption {α : Type} [JsonForm α] [ExactForm α] (name : String) (o : Option α)
      (hget : Record.get? ⟨f.members⟩ name = some (toJson o)) :
      Record.optionalField ⟨f.members⟩ name = some o :=
    Record.optionalField_of_get? hget (readsAs_option o)
  have heffort : Record.optionalField ⟨f.members⟩ "effort_to_fix" = some effort :=
    Record.optionalField_of_get? rfl h
  simp [ofRecord?, heffort, hfield "key" f.key rfl, hfield "rule_key" f.ruleKey rfl,
    hfield "severity" f.severity rfl, hfield "component_key" f.componentKey rfl,
    hfield "component_uuid" f.componentUuid rfl, hfield "project_uuid" f.projectUuid rfl,
    hoption "line" f.line rfl, hfield "status" f.status rfl,
    hoption "resolution" f.resolution rfl, hoption "assignee" f.assignee rfl,
    hoption "action_plan_key" f.actionPlanKey rfl, hfield "tags" f.tags rfl,
    hoption "message" f.message rfl, hoption "reporter" f.reporter rfl,
    hfield "created_at" f.createdAt rfl, hfield "updated_at" f.updatedAt rfl]

end Fields

/-- An issue is read as it is written, but for the effort. -/
theorem readsAs_issue {i : Issue} {effort : Option Binary64} (h : ReadsAs i.effortToFix effort) :
    ReadsAs i { i with effortToFix := effort } := by
  have hrecord : i.json.record? IssueFields.shape = some ⟨i.members⟩ :=
    Json.record?_record rfl (by decide)
  refine ⟨IssueFields.proper_json h.proper, ?_⟩
  simp [JsonForm.ofJson?, toJson, hrecord, IssueFields.ofRecord?_members h]

end Triage
