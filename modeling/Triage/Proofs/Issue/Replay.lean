import Mathlib.Data.List.Basic
import Mathlib.Tactic.SplitIfs
import Triage.Issue.Change
import Triage.Proofs.TextSet
import Triage.Tags

/-!
# Replaying a changelog

The text of a tracked field tells its value, as long as no tag is empty or holds white space.  So
the differences of an entry are those of the values, and an entry can be replayed: applied to an
issue that agrees with the one before the change, it gives one that agrees with the one after it.
-/

namespace Triage

/-- Whether every member of the set is a tag that can be stored. -/
def TextSet.AllValid (s : TextSet) : Prop := ∀ t ∈ s.toList, Tags.isValid t = true

instance (s : TextSet) : Decidable s.AllValid :=
  inferInstanceAs (Decidable (∀ t ∈ s.toList, Tags.isValid t = true))

/-- Whether no member has a space in it. -/
def TextSet.Spaceless (s : TextSet) : Prop := ∀ t ∈ s.toList, ' ' ∉ t.toList

instance (s : TextSet) : Decidable s.Spaceless :=
  inferInstanceAs (Decidable (∀ t ∈ s.toList, ' ' ∉ t.toList))

theorem TextSet.AllValid.spaceless {s : TextSet} (h : s.AllValid) : s.Spaceless := by
  intro t ht hspace
  have hblank : Text.hasBlank t = true := List.any_eq_true.2 ⟨' ', hspace, rfl⟩
  have hvalid := h t ht
  simp [Tags.isValid, hblank] at hvalid

namespace TrackedField

/-- Whether the two issues have the same value in the field. -/
def Agrees (f : TrackedField) (i j : Issue) : Prop :=
  match f with
  | .status => i.status = j.status
  | .resolution => i.resolution = j.resolution
  | .assignee => i.assignee = j.assignee
  | .actionPlan => i.actionPlanKey = j.actionPlanKey
  | .severity => i.severity = j.severity
  | .tags => i.tags = j.tags

instance (f : TrackedField) (i j : Issue) : Decidable (f.Agrees i j) :=
  match f with
  | .status => inferInstanceAs (Decidable (i.status = j.status))
  | .resolution => inferInstanceAs (Decidable (i.resolution = j.resolution))
  | .assignee => inferInstanceAs (Decidable (i.assignee = j.assignee))
  | .actionPlan => inferInstanceAs (Decidable (i.actionPlanKey = j.actionPlanKey))
  | .severity => inferInstanceAs (Decidable (i.severity = j.severity))
  | .tags => inferInstanceAs (Decidable (i.tags = j.tags))

/-- The issue with the value of the field that a text stands for. -/
def write? (f : TrackedField) (text : Option String) (i : Issue) : Option Issue :=
  match f, text with
  | .status, some s => (Label.ofLabel? s).map fun v => { i with status := v }
  | .status, none => none
  | .resolution, some s => (Label.ofLabel? s).map fun v => { i with resolution := some v }
  | .resolution, none => some { i with resolution := none }
  | .assignee, s => some { i with assignee := s.map Id.mk }
  | .actionPlan, s => some { i with actionPlanKey := s.map Id.mk }
  | .severity, some s => (Label.ofLabel? s).map fun v => { i with severity := v }
  | .severity, none => none
  | .tags, some s =>
    some { i with tags := TextSet.ofList ((s.toList.splitOn ' ').map String.ofList) }
  | .tags, none => some { i with tags := ∅ }

/-- The issue with the value that the field has in another. -/
def copy (f : TrackedField) (source i : Issue) : Issue :=
  match f with
  | .status => { i with status := source.status }
  | .resolution => { i with resolution := source.resolution }
  | .assignee => { i with assignee := source.assignee }
  | .actionPlan => { i with actionPlanKey := source.actionPlanKey }
  | .severity => { i with severity := source.severity }
  | .tags => { i with tags := source.tags }

variable {f g : TrackedField} {i j : Issue}

theorem mem_all (f : TrackedField) : f ∈ all := by cases f <;> decide

@[refl]
theorem Agrees.refl (f : TrackedField) (i : Issue) : f.Agrees i i := by cases f <;> rfl

theorem Agrees.symm (h : f.Agrees i j) : f.Agrees j i := by
  cases f <;> exact Eq.symm h

theorem Agrees.trans {k : Issue} (h : f.Agrees i j) (h' : f.Agrees j k) : f.Agrees i k := by
  cases f <;> exact Eq.trans h h'

theorem agrees_copy (f : TrackedField) (i j : Issue) : f.Agrees (f.copy j i) j := by
  cases f <;> rfl

theorem agrees_copy_of_ne (h : g ≠ f) (i j : Issue) : g.Agrees (f.copy j i) i := by
  cases f <;> cases g <;> first | rfl | exact absurd rfl h

/-! ## Texts -/

theorem render_eq_of_agrees (h : f.Agrees i j) : f.render i = f.render j := by
  cases f <;> simp only [Agrees] at h <;> simp only [render, h]

theorem splitOn_intercalate_tags {tags : TextSet} (h : tags.Spaceless) (hne : tags.toList ≠ []) :
    ((" ".intercalate tags.toList).toList.splitOn ' ').map String.ofList = tags.toList := by
  have hspace : ∀ cs ∈ tags.toList.map String.toList, ' ' ∉ cs := by
    intro cs hcs hmem
    obtain ⟨t, ht, rfl⟩ := List.mem_map.1 hcs
    exact h t ht hmem
  have hsplit := List.splitOn_intercalate ' ' hspace (by simpa using hne)
  rw [String.toList_intercalate]
  have hsep : " ".toList = [' '] := rfl
  rw [hsep, hsplit, List.map_map]
  simp [Function.comp_def]

/-- The text of the field's value stands for that value. -/
theorem write?_render (f : TrackedField) (hj : j.tags.AllValid) (i : Issue) :
    f.write? (f.render j) i = some (f.copy j i) := by
  cases f with
  | status => simp [render, write?, copy, Status.ofLabel?_label]
  | resolution =>
    rcases h : j.resolution with _ | r
    · simp [render, write?, copy, h]
    · simp [render, write?, copy, h, Resolution.ofLabel?_label]
  | assignee => simp [render, write?, copy, Function.comp_def]
  | actionPlan => simp [render, write?, copy, Function.comp_def]
  | severity => simp [render, write?, copy, Severity.ofLabel?_label]
  | tags =>
    by_cases hempty : j.tags.toList = []
    · have htags : j.tags = ∅ := TextSet.ext_toList hempty
      have htext : render .tags j = none := by simp [render, tagText, hempty]
      rw [htext]
      simp only [write?, copy, htags]
    · have htext : tagText j.tags = some (" ".intercalate j.tags.toList) := by
        simp [tagText, hempty]
      simp only [render, htext, write?, copy, splitOn_intercalate_tags hj.spaceless hempty,
        TextSet.ofList_toList]

theorem agrees_of_render_eq (hi : i.tags.AllValid) (hj : j.tags.AllValid)
    (h : f.render i = f.render j) : f.Agrees i j := by
  have hcopy : f.copy i i = f.copy j i := by
    have hwrite := f.write?_render hi i
    rw [h, f.write?_render hj i] at hwrite
    exact (Option.some.inj hwrite).symm
  have hself := f.agrees_copy i i
  rw [hcopy] at hself
  exact hself.symm.trans (f.agrees_copy i j)

end TrackedField

/-! ## Entries -/

namespace Issue

variable {before after i : Issue}

/-- The differences of the tracked fields whose values differ. -/
def changes (before after : Issue) : List FieldDiff :=
  (TrackedField.all.filter fun f => ¬f.Agrees before after).map fun f =>
    ⟨f.name, f.render before, f.render after⟩

/-- Whether the two issues have the same values in all tracked fields. -/
def Tracks (i j : Issue) : Prop := ∀ f : TrackedField, f.Agrees i j

theorem diffs_eq_changes (hb : before.tags.AllValid) (ha : after.tags.AllValid) :
    before.diffs after = before.changes after := by
  unfold diffs changes
  induction TrackedField.all with
  | nil => rfl
  | cons f fs ih =>
    by_cases h : f.Agrees before after
    · have hdiff : f.diff? before after = none := if_pos (TrackedField.render_eq_of_agrees h)
      rw [List.filter_cons_of_neg (by simpa using h), ← ih]
      simp only [List.filterMap_cons, hdiff]
    · have hdiff : f.diff? before after = some ⟨f.name, f.render before, f.render after⟩ :=
        if_neg fun heq => h (TrackedField.agrees_of_render_eq hb ha heq)
      rw [List.filter_cons_of_pos (by simpa using h), List.map_cons, ← ih]
      simp only [List.filterMap_cons, hdiff]

theorem changes_eq_nil_iff : before.changes after = [] ↔ before.Tracks after := by
  simp [changes, Tracks, TrackedField.mem_all]

@[refl]
theorem Tracks.refl (i : Issue) : i.Tracks i := fun f => .refl f i

theorem Tracks.symm {j : Issue} (h : i.Tracks j) : j.Tracks i := fun f => (h f).symm

theorem Tracks.trans {j k : Issue} (h : i.Tracks j) (h' : j.Tracks k) : i.Tracks k :=
  fun f => (h f).trans (h' f)

/-- Only the tracked fields of the issue after the change matter. -/
theorem Tracks.changes_eq {j : Issue} (h : after.Tracks j) :
    before.changes after = before.changes j := by
  have hagrees (f : TrackedField) : f.Agrees before after ↔ f.Agrees before j :=
    ⟨fun hf => hf.trans (h f), fun hf => hf.trans (h f).symm⟩
  simp only [changes, hagrees, TrackedField.render_eq_of_agrees (h _)]

theorem names_changes_sublist (before after : Issue) :
    ((before.changes after).map (·.field)).Sublist (TrackedField.all.map (·.name)) := by
  rw [changes, List.map_map]
  exact List.Sublist.map _ List.filter_sublist

/-! ### Replay -/

/-- The issue with the new value of a difference. -/
def amend? (i : Issue) (d : FieldDiff) : Option Issue :=
  (TrackedField.all.find? (·.name = d.field)).bind fun f => f.write? d.newValue i

/-- The issue after the differences of the entries, one after the other. -/
def replay? (i : Issue) (log : List IssueChange) : Option Issue :=
  (log.flatMap (·.diffs)).foldlM amend? i

theorem amend?_diff (f : TrackedField) (ha : after.tags.AllValid) (i : Issue) :
    i.amend? ⟨f.name, f.render before, f.render after⟩ = some (f.copy after i) := by
  have hname : TrackedField.all.find? (·.name = f.name) = some f := by cases f <;> rfl
  rw [amend?, hname]
  exact f.write?_render ha i

/-- The differences in some fields bring these to the values after the change, and leave the
others. -/
theorem foldlM_amend?_diffs (ha : after.tags.AllValid) (fs : List TrackedField) (i : Issue) :
    ∃ j, (fs.map fun f => FieldDiff.mk f.name (f.render before) (f.render after)).foldlM amend? i =
      some j ∧ (∀ f ∈ fs, f.Agrees j after) ∧ ∀ f ∉ fs, f.Agrees j i := by
  induction fs generalizing i with
  | nil => exact ⟨i, rfl, nofun, fun f _ => .refl f i⟩
  | cons f fs ih =>
    obtain ⟨j, hj, hin, hout⟩ := ih (f.copy after i)
    refine ⟨j, ?_, fun g hg => ?_, fun g hg => ?_⟩
    · rw [List.map_cons, List.foldlM_cons, amend?_diff f ha i]
      exact hj
    · by_cases hmem : g ∈ fs
      · exact hin g hmem
      · obtain rfl : g = f := (List.mem_cons.1 hg).resolve_right hmem
        exact (hout g hmem).trans (g.agrees_copy i after)
    · rw [List.mem_cons, not_or] at hg
      exact (hout g hg.2).trans (TrackedField.agrees_copy_of_ne hg.1 i after)

theorem foldlM_amend?_changes (ha : after.tags.AllValid) (hi : i.Tracks before) :
    ∃ j, (before.changes after).foldlM amend? i = some j ∧ j.Tracks after := by
  obtain ⟨j, hj, hin, hout⟩ :=
    foldlM_amend?_diffs ha (TrackedField.all.filter fun f => ¬f.Agrees before after) i
  refine ⟨j, hj, fun f => ?_⟩
  by_cases hf : f.Agrees before after
  · exact (hout f (by simp [hf])).trans ((hi f).trans hf)
  · exact hin f (by simp [hf, TrackedField.mem_all])

/-! ### Chains -/

/-- The differences of a field in the entries. -/
def diffsOf (f : TrackedField) (log : List IssueChange) : List FieldDiff :=
  (log.flatMap (·.diffs)).filter (·.field = f.name)

/-- Whether the differences lead from one text to another, each from where the last one led. -/
def Chained : Option String → List FieldDiff → Option String → Prop
  | a, [], b => a = b
  | a, d :: ds, b => d.oldValue = a ∧ Chained d.newValue ds b

theorem Chained.append {a b c : Option String} {ds es : List FieldDiff} (h : Chained a ds b)
    (h' : Chained b es c) : Chained a (ds ++ es) c := by
  induction ds generalizing a with
  | nil => exact (show a = b from h) ▸ h'
  | cons d ds ih => exact ⟨h.1, ih h.2⟩

theorem filter_changes (f : TrackedField) (before after : Issue) :
    (before.changes after).filter (·.field = f.name) =
      if f.Agrees before after then [] else [⟨f.name, f.render before, f.render after⟩] := by
  have hname : TrackedField.all.filter (fun g => g.name = f.name) = [f] := by cases f <;> rfl
  have hswap : (TrackedField.all.filter fun g => ¬g.Agrees before after).filter
      (fun g => g.name = f.name) = [f].filter fun g => ¬g.Agrees before after := by
    rw [List.filter_comm, hname]
  rw [changes, List.filter_map, Function.comp_def]
  simp only [hswap]
  by_cases h : f.Agrees before after <;> simp [h]

theorem chained_changes (f : TrackedField) (before after : Issue) :
    Chained (f.render before) ((before.changes after).filter (·.field = f.name))
      (f.render after) := by
  rw [filter_changes]
  split_ifs with h
  · exact TrackedField.render_eq_of_agrees h
  · exact ⟨rfl, rfl⟩

/-! ### From one issue to another -/

/-- Whether the entries lead from one issue to the tracked values of another: when they are
replayed, and from text to text in every field. -/
structure Leads (first : Issue) (log : List IssueChange) (last : Issue) : Prop where
  replay : ∃ i, first.replay? log = some i ∧ i.Tracks last
  chained : ∀ f : TrackedField, Chained (f.render first) (diffsOf f log) (f.render last)

variable {first : Issue} {log : List IssueChange} {c : IssueChange}

theorem Tracks.leads (h : first.Tracks after) : first.Leads [] after where
  replay := ⟨first, rfl, h⟩
  chained f := TrackedField.render_eq_of_agrees (h f)

theorem Leads.of_tracks {j : Issue} (h : first.Leads log after) (hj : after.Tracks j) :
    first.Leads log j where
  replay := by
    obtain ⟨i, hi, htracks⟩ := h.replay
    exact ⟨i, hi, htracks.trans hj⟩
  chained f := TrackedField.render_eq_of_agrees (hj f) ▸ h.chained f

/-- Another entry leads on, if it lists what has changed since. -/
theorem Leads.append (h : first.Leads log before) (hc : c.diffs = before.changes after)
    (ha : after.tags.AllValid) : first.Leads (log ++ [c]) after where
  replay := by
    obtain ⟨i, hi, htracks⟩ := h.replay
    obtain ⟨j, hj, hafter⟩ := foldlM_amend?_changes ha htracks
    refine ⟨j, ?_, hafter⟩
    rw [replay?, List.flatMap_append, List.foldlM_append, ← replay?, hi]
    simpa [hc] using hj
  chained f := by
    have hsplit : diffsOf f (log ++ [c]) =
        diffsOf f log ++ (before.changes after).filter (·.field = f.name) := by
      simp [diffsOf, hc]
    rw [hsplit]
    exact (h.chained f).append (chained_changes f before after)

end Issue

end Triage
