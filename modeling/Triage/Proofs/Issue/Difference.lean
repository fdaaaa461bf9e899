import Triage.Proofs.Issue.Replay

/-!
# What two issues differ in

The differences of two issues are found by comparing texts.  Of five tracked fields the text tells
the value.  The text of a set of tags tells only the words that the tags consist of: sets that are
cut into the same words at the spaces within their tags have the same text, however the words are
spread over tags.  Where no tag has a space in it, the words are the tags.
-/

namespace Triage

/-- Joined texts are cut where they are joined and within. -/
theorem splitOn_intercalate_eq_flatMap {c : Char} {ls : List (List Char)} (h : ls ≠ []) :
    ([c].intercalate ls).splitOn c = ls.flatMap fun l => l.splitOn c := by
  induction ls with
  | nil => exact absurd rfl h
  | cons l ls ih =>
    rcases ls with _ | ⟨l', ls⟩
    · simp
    · have hjoin : [c].intercalate (l :: l' :: ls) = l ++ c :: [c].intercalate (l' :: ls) := by
        simp
      rw [hjoin, List.splitOn_append_cons_self, ih (List.cons_ne_nil _ _), ← List.flatMap_cons]

namespace TextSet

/-- The pieces that the members consist of, in their order, each member cut at its spaces. -/
def words (s : TextSet) : List (List Char) := s.toList.flatMap fun t => t.toList.splitOn ' '

variable {s t : TextSet}

theorem words_eq_nil_iff : s.words = [] ↔ s.toList = [] := by
  rw [words, List.flatMap_eq_nil_iff]
  constructor
  · intro h
    rw [List.eq_nil_iff_forall_not_mem]
    exact fun t ht => List.splitOn_ne_nil ' ' t.toList (h t ht)
  · intro h
    simp [h]

/-- The words of a set without spaces are its members. -/
theorem Spaceless.words_eq (h : s.Spaceless) : s.words = s.toList.map String.toList := by
  rw [words, List.map_eq_flatMap]
  exact List.flatMap_congr fun t ht => List.splitOn_eq_singleton (h t ht)

theorem words_eq_iff (hs : s.Spaceless) (ht : t.Spaceless) : s.words = t.words ↔ s = t := by
  rw [hs.words_eq, ht.words_eq]
  constructor
  · intro h
    exact ext_toList (List.map_injective_iff.2 (fun _ _ => String.toList_injective) h)
  · rintro rfl
    rfl

end TextSet

namespace TrackedField

variable {s t : TextSet} {f : TrackedField} {i j : Issue}

theorem splitOn_of_tagText {text : String} (h : tagText s = some text) :
    text.toList.splitOn ' ' = s.words := by
  unfold tagText at h
  split at h
  case isTrue => cases h
  case isFalse hne =>
    cases h
    have hmap : s.toList.map String.toList ≠ [] := by simpa using hne
    rw [String.toList_intercalate, show " ".toList = [' '] from rfl,
      splitOn_intercalate_eq_flatMap hmap, List.flatMap_map]
    rfl

theorem tagText_eq_none_iff : tagText s = none ↔ s.words = [] := by
  rw [TextSet.words_eq_nil_iff]
  simp [tagText]

/-- Two sets of tags have the same text just if they have the same words. -/
theorem tagText_eq_iff : tagText s = tagText t ↔ s.words = t.words := by
  rcases hs : tagText s with _ | a <;> rcases ht : tagText t with _ | b
  · simp [tagText_eq_none_iff.1 hs, tagText_eq_none_iff.1 ht]
  · have hwords : t.words ≠ [] := fun h => by simp [tagText_eq_none_iff.2 h] at ht
    simp [tagText_eq_none_iff.1 hs, hwords.symm]
  · have hwords : s.words ≠ [] := fun h => by simp [tagText_eq_none_iff.2 h] at hs
    simp [tagText_eq_none_iff.1 ht, hwords]
  · rw [← splitOn_of_tagText hs, ← splitOn_of_tagText ht, Option.some.injEq]
    constructor
    · rintro rfl
      rfl
    · intro h
      have hjoin := congrArg [' '].intercalate h
      rw [List.intercalate_splitOn, List.intercalate_splitOn] at hjoin
      exact String.toList_injective hjoin

/-- Whether the two issues differ in what the text of the field tells: in its value, and of the tags
in the words. -/
def Differs (f : TrackedField) (i j : Issue) : Prop :=
  match f with
  | .tags => i.tags.words ≠ j.tags.words
  | f => ¬f.Agrees i j

theorem differs_of_ne_tags (h : f ≠ .tags) : f.Differs i j ↔ ¬f.Agrees i j := by
  cases f <;> first | rfl | exact absurd rfl h

/-- Where no tag has a space, all fields differ as their values do. -/
theorem differs_iff (hi : i.tags.Spaceless) (hj : j.tags.Spaceless) :
    f.Differs i j ↔ ¬f.Agrees i j := by
  cases f with
  | tags => exact not_congr (TextSet.words_eq_iff hi hj)
  | status | resolution | assignee | actionPlan | severity => rfl

theorem not_agrees_of_differs (h : f.Differs i j) : ¬f.Agrees i j := by
  cases f with
  | tags => exact fun heq => h (congrArg TextSet.words heq)
  | status | resolution | assignee | actionPlan | severity => exact h

theorem agrees_of_render_eq_of_ne_tags (hf : f ≠ .tags) (h : f.render i = f.render j) :
    f.Agrees i j := by
  have hvalid : TextSet.AllValid ∅ := nofun
  have hagrees (hrender : f.render { i with tags := ∅ } = f.render { j with tags := ∅ }) :
      f.Agrees { i with tags := ∅ } { j with tags := ∅ } :=
    agrees_of_render_eq hvalid hvalid hrender
  -- the tags matter to no other field
  cases f with
  | tags => exact absurd rfl hf
  | status | resolution | assignee | actionPlan | severity => exact hagrees h

theorem render_eq_iff : f.render i = f.render j ↔ ¬f.Differs i j := by
  by_cases hf : f = .tags
  · subst hf
    exact tagText_eq_iff.trans not_not.symm
  · rw [differs_of_ne_tags hf, not_not]
    exact ⟨agrees_of_render_eq_of_ne_tags hf, render_eq_of_agrees⟩

theorem field_of_diff? {d : FieldDiff} (h : f.diff? i j = some d) : d.field = f.name := by
  unfold diff? at h
  split_ifs at h
  cases h
  rfl

theorem name_injective {g : TrackedField} (h : f.name = g.name) : f = g := by
  cases f <;> cases g <;> first | rfl | exact absurd h (by decide)

end TrackedField

namespace Issue

variable {before after : Issue} {d : FieldDiff} {f : TrackedField}

theorem mem_diffs_iff : d ∈ before.diffs after ↔
    ∃ f : TrackedField, f.Differs before after ∧
      d = ⟨f.name, f.render before, f.render after⟩ := by
  rw [diffs, List.mem_filterMap]
  refine exists_congr fun f => ?_
  rw [TrackedField.diff?]
  split_ifs with h
  · simp [TrackedField.render_eq_iff.1 h]
  · have hdiffers : f.Differs before after := not_not.1 (mt TrackedField.render_eq_iff.2 h)
    simp [TrackedField.mem_all, hdiffers, eq_comm]

theorem exists_mem_diffs_iff :
    (∃ d ∈ before.diffs after, d.field = f.name) ↔ f.Differs before after := by
  constructor
  · rintro ⟨d, hd, hfield⟩
    obtain ⟨g, hg, rfl⟩ := mem_diffs_iff.1 hd
    exact TrackedField.name_injective hfield ▸ hg
  · exact fun h => ⟨_, mem_diffs_iff.2 ⟨f, h, rfl⟩, rfl⟩

theorem diffs_eq_nil_iff :
    before.diffs after = [] ↔ ∀ f : TrackedField, ¬f.Differs before after := by
  rw [List.eq_nil_iff_forall_not_mem]
  constructor
  · exact fun h f hf => h _ (mem_diffs_iff.2 ⟨f, hf, rfl⟩)
  · intro h d hd
    obtain ⟨f, hf, -⟩ := mem_diffs_iff.1 hd
    exact h f hf

/-- A field has one entry at most. -/
theorem pairwise_diffs (before after : Issue) :
    (before.diffs after).Pairwise fun d d' => d.field ≠ d'.field := by
  have hall : TrackedField.all.Pairwise fun f g => f.name ≠ g.name := by decide
  refine hall.filterMap _ fun f g hfg d hd d' hd' => ?_
  rw [TrackedField.field_of_diff? hd, TrackedField.field_of_diff? hd']
  exact hfg

/-- Where no tag has a space, there are no differences just if all tracked values are the same. -/
theorem diffs_eq_nil_iff_tracks (hb : before.tags.Spaceless) (ha : after.tags.Spaceless) :
    before.diffs after = [] ↔ before.Tracks after := by
  rw [diffs_eq_nil_iff]
  exact forall_congr' fun f => (not_congr (TrackedField.differs_iff hb ha)).trans not_not

end Issue

end Triage
