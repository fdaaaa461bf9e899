import Triage.Proofs.Search.Tally

/-!
# From a facet to a filter

A bucket of a facet tells how many documents are left if its value is asked for.  Each field of the
facets has a list of values in the query, and asking for some of them keeps the documents that add
one of them to the facet; an empty list keeps all.
-/

namespace Triage

/-! ## Fields in queries -/

namespace FacetField

/-- What a query lists for the field. -/
def Value : FacetField → Type
  | projects => ProjectUuid
  | components => ComponentUuid
  | rules => RuleKey
  | severities => Severity
  | statuses => Status
  | resolutions => Resolution
  | assignees => Login
  | actionPlans => ActionPlanKey
  | tags => String

/-- The text that stands for the value in a facet. -/
def text : (field : FacetField) → field.Value → String
  | projects, v => Id.text v
  | components, v => Id.text v
  | rules, v => Id.text v
  | severities, v => label (α := Severity) v
  | statuses, v => label (α := Status) v
  | resolutions, v => label (α := Resolution) v
  | assignees, v => Id.text v
  | actionPlans, v => Id.text v
  | tags, v => v

end FacetField

namespace IssueQuery

/-- The values that the query lists for the field. -/
def listed (q : IssueQuery) : (field : FacetField) → List field.Value
  | .projects => q.projectUuids
  | .components => q.componentUuids
  | .rules => q.rules
  | .severities => q.severities
  | .statuses => q.statuses
  | .resolutions => q.resolutions
  | .assignees => q.assignees
  | .actionPlans => q.actionPlans
  | .tags => q.tags

/-- The query with other values listed for the field. -/
def withListed (q : IssueQuery) : (field : FacetField) → List field.Value → IssueQuery
  | .projects, vs => { q with projectUuids := vs }
  | .components, vs => { q with componentUuids := vs }
  | .rules, vs => { q with rules := vs }
  | .severities, vs => { q with severities := vs }
  | .statuses, vs => { q with statuses := vs }
  | .resolutions, vs => { q with resolutions := vs }
  | .assignees, vs => { q with assignees := vs }
  | .actionPlans, vs => { q with actionPlans := vs }
  | .tags, vs => { q with tags := vs }

variable {q : IssueQuery} {d : IssueDoc}

theorem withListed_of_listed {field : FacetField} {vs : List field.Value}
    (h : q.listed field = vs) : q.withListed field vs = q := by
  subst h
  cases field <;> rfl

theorem oneOf_eq {α : Type} [BEq α] [LawfulBEq α] (vs : List α) {text : α → String}
    (htext : Function.Injective text) (a : α) :
    oneOf vs a = (vs.isEmpty || vs.any fun v => some (text v) ∈ [some (text a)]) := by
  refine congrArg (vs.isEmpty || ·) (Bool.eq_iff_iff.2 ?_)
  simp [htext.eq_iff]

theorem someOneOf_eq {α : Type} [BEq α] [LawfulBEq α] (vs : List α) {text : α → String}
    (htext : Function.Injective text) (o : Option α) :
    someOneOf vs o = (vs.isEmpty || vs.any fun v => some (text v) ∈ [o.map text]) := by
  refine congrArg (vs.isEmpty || ·) (Bool.eq_iff_iff.2 ?_)
  cases o <;> simp [htext.eq_iff]

end IssueQuery

namespace FacetField

/-- Whether the document passes the filter that lists the values for the field. -/
def passes : (field : FacetField) → List field.Value → IssueDoc → Bool
  | projects, vs, d => IssueQuery.oneOf (α := ProjectUuid) vs d.projectUuid
  | components, vs, d => IssueQuery.oneOf (α := ComponentUuid) vs d.componentUuid
  | rules, vs, d => IssueQuery.oneOf (α := RuleKey) vs d.ruleKey
  | severities, vs, d => IssueQuery.oneOf (α := Severity) vs d.severity
  | statuses, vs, d => IssueQuery.oneOf (α := Status) vs d.status
  | resolutions, vs, d => IssueQuery.someOneOf (α := Resolution) vs d.resolution
  | assignees, vs, d => IssueQuery.someOneOf (α := Login) vs d.assignee
  | actionPlans, vs, d => IssueQuery.someOneOf (α := ActionPlanKey) vs d.actionPlanKey
  | tags, vs, d => vs.isEmpty || List.any (α := String) vs d.tags.contains

theorem label_injective {α : Type} [Label α]
    (h : ∀ a : α, Label.ofLabel? (label a) = some a) : Function.Injective (label (α := α)) :=
  fun a b hab => Option.some.inj ((h a).symm.trans (hab ▸ h b))

theorem text_injective (field : FacetField) : Function.Injective field.text := by
  cases field with
  | projects | components | rules | assignees | actionPlans => exact fun _ _ h => Id.ext_text h
  | severities => exact label_injective (α := Severity) Severity.ofLabel?_label
  | statuses => exact label_injective (α := Status) Status.ofLabel?_label
  | resolutions => exact label_injective (α := Resolution) Resolution.ofLabel?_label
  | tags => exact fun _ _ h => h

/-- A filter keeps the documents that add one of its values to the facet. -/
theorem passes_eq (field : FacetField) (vs : List field.Value) (d : IssueDoc) :
    field.passes vs d =
      (vs.isEmpty || vs.any fun v => some (field.text v) ∈ field.values d) := by
  cases field with
  | projects => exact IssueQuery.oneOf_eq (α := ProjectUuid) _ (text_injective projects) _
  | components => exact IssueQuery.oneOf_eq (α := ComponentUuid) _ (text_injective components) _
  | rules => exact IssueQuery.oneOf_eq (α := RuleKey) _ (text_injective rules) _
  | severities => exact IssueQuery.oneOf_eq (α := Severity) _ (text_injective severities) _
  | statuses => exact IssueQuery.oneOf_eq (α := Status) _ (text_injective statuses) _
  | resolutions => exact IssueQuery.someOneOf_eq (α := Resolution) _ (text_injective resolutions) _
  | assignees => exact IssueQuery.someOneOf_eq (α := Login) _ (text_injective assignees) _
  | actionPlans =>
    exact IssueQuery.someOneOf_eq (α := ActionPlanKey) _ (text_injective actionPlans) _
  | tags =>
    refine congrArg (vs.isEmpty || ·) (congrArg (List.any vs) (funext fun t => ?_))
    simp [TextSet.contains, values, text]

end FacetField

theorem IssueQuery.accepts_withListed (q : IssueQuery) (field : FacetField) (vs : List field.Value)
    (d : IssueDoc) : (q.withListed field vs).accepts d =
      ((q.withListed field []).accepts d && field.passes vs d) := by
  cases field <;>
    simp only [accepts, withListed, FacetField.passes] <;>
    ac_rfl

theorem IssueQuery.accepts_listed {q : IssueQuery} {field : FacetField} (hq : q.listed field = [])
    (vs : List field.Value) (d : IssueDoc) :
    (q.withListed field vs).accepts d = (q.accepts d && field.passes vs d) := by
  rw [accepts_withListed, withListed_of_listed hq]

theorem IssueQuery.accepts_unassigned {q : IssueQuery} (hq : q.assigned = none) (d : IssueDoc) :
    { q with assigned := some false }.accepts d =
      (q.accepts d && none ∈ FacetField.assignees.values d) := by
  have hnone : (none ∈ FacetField.assignees.values d : Bool) = (false == d.assignee.isSome) := by
    cases h : d.assignee <;> simp [FacetField.values, h]
  simp only [hnone, accepts, flagAllows, hq, Option.all_none, Option.all_some]
  ac_rfl

theorem IssueQuery.accepts_unplanned {q : IssueQuery} (hq : q.planned = none) (d : IssueDoc) :
    { q with planned := some false }.accepts d =
      (q.accepts d && none ∈ FacetField.actionPlans.values d) := by
  have hnone :
      (none ∈ FacetField.actionPlans.values d : Bool) = (false == d.actionPlanKey.isSome) := by
    cases h : d.actionPlanKey <;> simp [FacetField.values, h]
  simp only [hnone, accepts, flagAllows, hq, Option.all_none, Option.all_some]
  ac_rfl

/-! ## Counts and totals -/

/-- What satisfies one of two conditions that exclude each other is counted by one of them. -/
theorem countP_or {α : Type} {p p' : α → Bool} (h : ∀ a, p a = true → p' a = false) (l : List α) :
    l.countP (fun a => p a || p' a) = l.countP p + l.countP p' := by
  induction l with
  | nil => rfl
  | cons a l ih =>
    rw [List.countP_cons, List.countP_cons, List.countP_cons, ih]
    rcases hp : p a with _ | _
    · rw [Bool.false_or]
      simp only [Bool.false_eq_true, if_false]
      omega
    · rw [h a hp]
      simp only [Bool.true_or, Bool.false_eq_true, if_true, if_false]
      omega

namespace Index

variable {x : Index} {q : IssueQuery} {field : FacetField}

/-- A bucket counts the documents that are accepted and add its value. -/
theorem countOf_facet (x : Index) (q : IssueQuery) (field : FacetField) (v : Option String) :
    (x.facet q field).countOf v =
      x.docs.values.countP fun d => v ∈ field.values d && q.accepts d := by
  rw [(x.tallies_facet q field).countOf_eq, matching, List.countP_filter]

/-- The total of a query that keeps just the documents of a bucket is the count of the bucket. -/
theorem total_eq_countOf (x : Index) {q' : IssueQuery} {v : Option String}
    (hq' : ∀ d, q'.accepts d = (q.accepts d && v ∈ field.values d)) (facets : List FacetField)
    (offset limit : Nat) (o : Option SortOrder) :
    (x.search ⟨q', facets, offset, limit, o⟩).total = (x.facet q field).countOf v := by
  rw [total_search, countOf_facet]
  refine List.countP_congr fun d _ => ?_
  rw [hq', Bool.and_comm]

/-- The documents of several values of a field that has one in each document are those of the values
one by one. -/
theorem countP_passes (hfield : field ≠ .tags) {vs : List field.Value} (hvs : vs ≠ [])
    (hnodup : vs.Nodup) (accepts : IssueDoc → Bool) (docs : List IssueDoc) :
    (docs.countP fun d => field.passes vs d && accepts d) =
      (vs.map fun v => docs.countP fun d =>
        some (field.text v) ∈ field.values d && accepts d).sum := by
  have hpasses : (fun d => field.passes vs d && accepts d) =
      fun d => vs.any (fun v => some (field.text v) ∈ field.values d) && accepts d := by
    funext d
    rw [field.passes_eq, List.isEmpty_eq_false_iff.2 hvs, Bool.false_or]
  rw [hpasses]
  clear hpasses hvs
  induction vs with
  | nil => simp
  | cons v vs ih =>
    obtain ⟨hv, hnodup⟩ := List.nodup_cons.1 hnodup
    rw [List.map_cons, List.sum_cons, ← ih hnodup, ← countP_or]
    · simp only [List.any_cons, Bool.and_or_distrib_right]
    · -- a document has one value, so that the others do not keep it
      intro d hd
      obtain ⟨w, hw⟩ := FacetField.exists_values_eq hfield d
      simp only [hw, List.mem_singleton, Bool.and_eq_true, decide_eq_true_eq] at hd
      have hothers : (vs.any fun v' => some (field.text v') ∈ field.values d) = false := by
        refine List.any_eq_false.2 fun v' hv' => ?_
        rw [decide_eq_true_eq, hw, List.mem_singleton, ← hd.1, Option.some_inj]
        exact fun htext => hv (field.text_injective htext ▸ hv')
      rw [hothers, Bool.false_and]

/-- Asking for values of a field that has none listed leaves as many documents as the facet of the
field counts: those of the bucket for one value, those of all buckets together for several values of
a field that has one in each document, and those of the absent bucket where issues without assignee
or action plan are asked for. -/
theorem drill_down (x : Index) (q : IssueQuery) (field : FacetField) (hq : q.listed field = [])
    (facets : List FacetField) (offset limit : Nat) (o : Option SortOrder) :
    let total (q : IssueQuery) := (x.search ⟨q, facets, offset, limit, o⟩).total
    (∀ v, (x.facet q field).countOf (some (field.text v)) = total (q.withListed field [v])) ∧
    (field ≠ .tags → ∀ vs, vs ≠ [] → vs.Nodup → total (q.withListed field vs) =
      (vs.map fun v => (x.facet q field).countOf (some (field.text v))).sum) ∧
    (field = .assignees → q.assigned = none →
      (x.facet q field).countOf none = total { q with assigned := some false }) ∧
    (field = .actionPlans → q.planned = none →
      (x.facet q field).countOf none = total { q with planned := some false }) ∧
    ∀ r c, r.query = q → (x.search r).facet? (label field) = some c → c = x.facet q field := by
  refine ⟨fun v => ?_, fun hfield vs hvs hnodup => ?_, ?_, ?_, fun r c hr hc => ?_⟩
  · refine (x.total_eq_countOf (fun d => ?_) facets offset limit o).symm
    rw [IssueQuery.accepts_listed hq, field.passes_eq]
    simp
  · simp only [total_search, countOf_facet, ← countP_passes hfield hvs hnodup]
    refine List.countP_congr fun d _ => ?_
    rw [IssueQuery.accepts_listed hq, Bool.and_comm]
  · rintro rfl hassigned
    exact (x.total_eq_countOf (IssueQuery.accepts_unassigned hassigned) facets offset limit o).symm
  · rintro rfl hplanned
    exact (x.total_eq_countOf (IssueQuery.accepts_unplanned hplanned) facets offset limit o).symm
  · obtain ⟨field', -, hlabel, rfl⟩ := facet?_search_eq_some.1 hc
    rw [FacetField.eq_of_label_eq hlabel, hr]

/-- Two issues, one of which is assigned. -/
def sampleShared : Index :=
  let fresh (key : IssueKey) := Issue.fresh key ⟨"repo:rule"⟩ ⟨⟨"app:a.c"⟩, ⟨"c1"⟩, ⟨"p1"⟩⟩
  (put {} { fresh ⟨"a"⟩ with assignee := some ⟨"ada"⟩ }.doc).put (fresh ⟨"b"⟩).doc

theorem drill_down_sample :
    (sampleShared.facet {} .assignees).countOf (some "ada") = 1 ∧
    (sampleShared.search ⟨{ assignees := [⟨"ada"⟩] }, [], 0, 10, none⟩).total = 1 ∧
    (sampleShared.search ⟨{ assignees := [⟨"ada"⟩, ⟨"bob"⟩] }, [], 0, 10, none⟩).total = 1 + 0 ∧
    (sampleShared.search ⟨{ assigned := some false }, [], 0, 10, none⟩).total = 1 := by
  obtain ⟨hvalue, hlist, habsent, -⟩ := drill_down sampleShared {} .assignees rfl [] 0 10 none
  have hada : (sampleShared.facet {} .assignees).countOf (some "ada") = 1 := by
    rw [countOf_facet]
    decide +kernel
  have hbob : (sampleShared.facet {} .assignees).countOf (some "bob") = 0 := by
    rw [countOf_facet]
    decide +kernel
  have hnone : (sampleShared.facet {} .assignees).countOf none = 1 := by
    rw [countOf_facet]
    decide +kernel
  have hdistinct : [(⟨"ada"⟩ : Login), ⟨"bob"⟩].Nodup := by decide
  refine ⟨hada, (hvalue ⟨"ada"⟩).symm.trans hada, ?_, (habsent rfl rfl).symm.trans hnone⟩
  refine (hlist (by decide) [(⟨"ada"⟩ : Login), ⟨"bob"⟩] (List.cons_ne_nil _ _) hdistinct).trans ?_
  exact congrArg₂ (fun m n : Nat => m + (n + 0)) hada hbob

/-- An empty list is no filter, so that it does not leave the documents of none of its values. -/
theorem total_of_empty_list : ({} : IssueQuery).listed .statuses = [] ∧ ([] : List Status).Nodup ∧
    (sampleShared.search ⟨({} : IssueQuery).withListed .statuses [], [], 0, 10, none⟩).total = 2 ∧
    (([] : List Status).map fun v =>
      (sampleShared.facet {} .statuses).countOf (some (FacetField.statuses.text v))).sum = 0 := by
  refine ⟨rfl, List.nodup_nil, ?_, rfl⟩
  rw [total_search]
  decide +kernel

end Index

end Triage
