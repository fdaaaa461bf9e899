import Mathlib.Data.List.Induction
import Triage.Catalog
import Triage.Proofs.KeyMap

/-!
# Projects of a catalog

Two maps answer for the components of a catalog: the component under each key, and the key that each
uuid was last registered with.  What they answer is read off the registrations, the last one first.
They belong together as long as no component has been replaced, under its key, by one with another
uuid; the uuid of a replaced one still leads to that key.
-/

namespace Triage

namespace Catalog

variable {rs : List Component} {key : ComponentKey} {uuid : ComponentUuid} {c d : Component}

/-! ## What was registered last -/

/-- A catalog with nothing but the components registered, one after the other. -/
def ofComponents (rs : List Component) : Catalog := rs.foldl addComponent {}

/-- The last registration under a key. -/
def lastAt? (rs : List Component) (key : ComponentKey) : Option Component :=
  rs.reverse.find? (·.key = key)

/-- The last registration of a uuid. -/
def lastOf? (rs : List Component) (uuid : ComponentUuid) : Option Component :=
  rs.reverse.find? (·.uuid = uuid)

theorem ofComponents_append (rs : List Component) (r : Component) :
    ofComponents (rs ++ [r]) = (ofComponents rs).addComponent r := by
  simp [ofComponents]

theorem lastAt?_append (rs : List Component) (r : Component) (key : ComponentKey) :
    lastAt? (rs ++ [r]) key = if r.key = key then some r else lastAt? rs key := by
  by_cases h : r.key = key <;> simp [lastAt?, h]

theorem lastOf?_append (rs : List Component) (r : Component) (uuid : ComponentUuid) :
    lastOf? (rs ++ [r]) uuid = if r.uuid = uuid then some r else lastOf? rs uuid := by
  by_cases h : r.uuid = uuid <;> simp [lastOf?, h]

theorem component?_ofComponents (rs : List Component) (key : ComponentKey) :
    (ofComponents rs).component? key = lastAt? rs key := by
  induction rs using List.reverseRecOn with
  | nil => rfl
  | append_singleton rs r ih =>
    rw [ofComponents_append, component?, addComponent, KeyMap.get?_insert, ← component?, ih,
      lastAt?_append]

theorem get?_uuidOwners_ofComponents (rs : List Component) (uuid : ComponentUuid) :
    (ofComponents rs).uuidOwners.get? uuid = (lastOf? rs uuid).map (·.key) := by
  induction rs using List.reverseRecOn with
  | nil => rfl
  | append_singleton rs r ih =>
    rw [ofComponents_append, addComponent, KeyMap.get?_insert, ih, lastOf?_append]
    split <;> rfl

/-- A project is looked up by way of the last registration of its uuid: whatever lies under the key
of that one is answered, if it is a root. -/
theorem project?_ofComponents (rs : List Component) (uuid : ProjectUuid) :
    (ofComponents rs).project? uuid =
      ((lastOf? rs ⟨uuid.text⟩).bind fun r => lastAt? rs r.key).filter Component.isProject := by
  have hkey : (ofComponents rs).components.get? = lastAt? rs :=
    funext fun key => component?_ofComponents rs key
  rw [project?, get?_uuidOwners_ofComponents, hkey, Option.bind_map]
  rfl

theorem key_of_lastAt? (h : lastAt? rs key = some c) : c.key = key := by
  simpa using List.find?_some h

theorem uuid_of_lastOf? (h : lastOf? rs uuid = some c) : c.uuid = uuid := by
  simpa using List.find?_some h

theorem mem_of_lastAt? (h : lastAt? rs key = some c) : c ∈ rs :=
  List.mem_reverse.1 (List.mem_of_find?_eq_some h)

theorem exists_lastOf?_of_mem (h : c ∈ rs) : ∃ r, lastOf? rs c.uuid = some r := by
  rw [← Option.isSome_iff_exists, lastOf?, List.find?_isSome]
  exact ⟨c, List.mem_reverse.2 h, by simp⟩

/-- The last registration of a uuid, with those before and after it. -/
theorem lastOf?_eq_some_iff : lastOf? rs uuid = some c ↔
    ∃ as bs, rs = as ++ c :: bs ∧ c.uuid = uuid ∧ ∀ b ∈ bs, b.uuid ≠ uuid := by
  rw [lastOf?, List.find?_eq_some_iff_append]
  simp only [decide_eq_true_eq, Bool.not_eq_true', decide_eq_false_iff_not]
  constructor
  · rintro ⟨huuid, bs, as, hrs, hbs⟩
    refine ⟨as.reverse, bs.reverse, ?_, huuid, fun b hb => hbs b (List.mem_reverse.1 hb)⟩
    rw [← List.reverse_reverse rs, hrs]
    simp
  · rintro ⟨as, bs, rfl, huuid, hbs⟩
    exact ⟨huuid, bs.reverse, as.reverse, by simp, fun b hb => hbs b (List.mem_reverse.1 hb)⟩

theorem lastAt?_append_cons (as bs : List Component) (r : Component) :
    lastAt? (as ++ r :: bs) r.key = some ((lastAt? bs r.key).getD r) := by
  simp only [lastAt?, List.reverse_append, List.reverse_cons, List.find?_append]
  cases bs.reverse.find? (·.key = r.key) <;> simp

/-! ## Replaced components -/

/-- Whether the component that the uuid was last registered with has since been replaced under its
key, so by one with another uuid. -/
def Displaced (rs : List Component) (uuid : ComponentUuid) : Prop :=
  ∃ as r bs, rs = as ++ r :: bs ∧ r.uuid = uuid ∧ (∀ b ∈ bs, b.uuid ≠ uuid) ∧
    ∃ b ∈ bs, b.key = r.key

/-- What was registered last under the key that a uuid leads to: the component of that uuid, unless
it is displaced. -/
theorem lastAt?_of_lastOf? (h : lastOf? rs uuid = some c) :
    ∃ d, lastAt? rs c.key = some d ∧ (¬Displaced rs uuid → d = c) ∧
      (Displaced rs uuid → d.uuid ≠ uuid) := by
  obtain ⟨as, bs, rfl, huuid, hbs⟩ := lastOf?_eq_some_iff.1 h
  refine ⟨_, lastAt?_append_cons as bs c, fun hnot => ?_, fun hdisplaced => ?_⟩
  · rcases hlast : lastAt? bs c.key with _ | b
    · rfl
    · exact absurd ⟨as, c, bs, rfl, huuid, hbs, b, mem_of_lastAt? hlast, key_of_lastAt? hlast⟩ hnot
  · obtain ⟨as', r, bs', heq, hr, hbs', b, hb, hkey⟩ := hdisplaced
    -- the last registration of the uuid is the same one in both
    obtain rfl : r = c := Option.some.inj
      ((lastOf?_eq_some_iff.2 ⟨as', bs', heq, hr, hbs'⟩).symm.trans h)
    obtain ⟨d, hd⟩ : ∃ d, lastAt? bs' r.key = some d := by
      rw [← Option.isSome_iff_exists, lastAt?, List.find?_isSome]
      exact ⟨b, List.mem_reverse.2 hb, by simpa using hkey⟩
    have hsame := (lastAt?_append_cons as' bs' r).symm.trans (heq ▸ lastAt?_append_cons as bs r)
    rw [← Option.some.inj hsame, hd]
    exact hbs' d (mem_of_lastAt? hd)

theorem not_displaced_of_same_uuid
    (h : ∀ r ∈ rs, ∀ b ∈ rs, b.key = r.key → b.uuid = r.uuid) (uuid : ComponentUuid) :
    ¬Displaced rs uuid := by
  rintro ⟨as, r, bs, rfl, hr, hbs, b, hb, hkey⟩
  exact hbs b hb (hr ▸ h r (by simp) b (by simp [hb]) hkey)

/-! ## Look-up of a project -/

theorem project?_eq_some_iff {project : ProjectUuid} :
    (ofComponents rs).project? project = some c ↔
      ∃ r, lastOf? rs ⟨project.text⟩ = some r ∧ lastAt? rs r.key = some c ∧ c.isProject = true := by
  rw [project?_ofComponents, Option.filter_eq_some_iff, Option.bind_eq_some_iff]
  exact ⟨fun ⟨⟨r, hr, hc⟩, hroot⟩ => ⟨r, hr, hc, hroot⟩,
    fun ⟨r, hr, hc, hroot⟩ => ⟨⟨r, hr, hc⟩, hroot⟩⟩

theorem uuid_text_of_project? {project : ProjectUuid} (hnot : ¬Displaced rs ⟨project.text⟩)
    (h : (ofComponents rs).project? project = some c) :
    c.uuid.text = project.text ∧ c.projectUuid = project := by
  obtain ⟨r, hr, hc, hroot⟩ := project?_eq_some_iff.1 h
  obtain ⟨d, hd, hsame, -⟩ := lastAt?_of_lastOf? hr
  obtain rfl : d = c := Option.some.inj (hd.symm.trans hc)
  have huuid : d.uuid.text = project.text := by rw [hsame hnot, uuid_of_lastOf? hr]
  have hproject : d.uuid.text = d.projectUuid.text := by simpa [Component.isProject] using hroot
  exact ⟨huuid, Id.ext_text (hproject.symm.trans huuid)⟩

/-- The one component that lies in the catalog with a uuid is found by it, if it is a root. -/
theorem project?_of_unique {project : ProjectUuid} (hnot : ¬Displaced rs ⟨project.text⟩)
    (hc : (ofComponents rs).component? c.key = some c) (huuid : c.uuid.text = project.text)
    (hroot : c.isProject = true)
    (hunique : ∀ d, (ofComponents rs).component? d.key = some d → d.uuid = c.uuid → d = c) :
    (ofComponents rs).project? project = some c := by
  have hid : c.uuid = ⟨project.text⟩ := Id.ext_text huuid
  rw [component?_ofComponents] at hc
  obtain ⟨r, hr⟩ := exists_lastOf?_of_mem (mem_of_lastAt? hc)
  obtain ⟨d, hd, hsame, -⟩ := lastAt?_of_lastOf? hr
  obtain rfl : d = r := hsame (hid ▸ hnot)
  obtain rfl : d = c := hunique d ((component?_ofComponents rs d.key).trans hd) (uuid_of_lastOf? hr)
  exact project?_eq_some_iff.2 ⟨d, hid ▸ hr, hd, hroot⟩

/-- For every sequence of registrations and every uuid: a component is found under its key just as
it was last registered there, and the project that is found by the uuid is the root that lies under
the key of the uuid's last registration.  If that registration has not been replaced by one with
another uuid, the project found has the uuid, and the one component with the uuid is found if it is
a root; this is so of every uuid as long as each key keeps its own.  If it has been replaced, a
project that is found has another uuid, so no component with the uuid is found by it. -/
theorem project_follows_registrations (rs : List Component) (project : ProjectUuid) :
    (∀ key, (ofComponents rs).component? key = lastAt? rs key) ∧
    (∀ c, (ofComponents rs).project? project = some c ↔
      ∃ r, lastOf? rs ⟨project.text⟩ = some r ∧ lastAt? rs r.key = some c ∧
        c.isProject = true) ∧
    (∀ c, (ofComponents rs).project? project = some c →
      (ofComponents rs).component? c.key = some c ∧ c.uuid.text = c.projectUuid.text) ∧
    (¬Displaced rs ⟨project.text⟩ →
      (∀ c, (ofComponents rs).project? project = some c →
        c.uuid.text = project.text ∧ c.projectUuid = project ∧
        (ofComponents rs).component? c.key = some c) ∧
      ∀ c, (ofComponents rs).component? c.key = some c → c.uuid.text = project.text →
        (∀ d, (ofComponents rs).component? d.key = some d → d.uuid = c.uuid → d = c) →
        c.isProject = true → (ofComponents rs).project? project = some c) ∧
    ((∀ r ∈ rs, ∀ b ∈ rs, b.key = r.key → b.uuid = r.uuid) → ¬Displaced rs ⟨project.text⟩) ∧
    (Displaced rs ⟨project.text⟩ →
      ∀ c, (ofComponents rs).project? project = some c → c.uuid.text ≠ project.text) := by
  have hlies {c : Component} (h : (ofComponents rs).project? project = some c) :
      (ofComponents rs).component? c.key = some c := by
    obtain ⟨r, -, hc, -⟩ := project?_eq_some_iff.1 h
    rw [component?_ofComponents, key_of_lastAt? hc, hc]
  refine ⟨component?_ofComponents rs, fun c => project?_eq_some_iff, fun c h => ⟨hlies h, ?_⟩,
    fun hnot => ⟨fun c h => ?_, fun c hc huuid hunique hroot =>
      project?_of_unique hnot hc huuid hroot hunique⟩,
    fun h => not_displaced_of_same_uuid h _, fun hdisplaced c h htext => ?_⟩
  · obtain ⟨-, -, -, hroot⟩ := project?_eq_some_iff.1 h
    simpa [Component.isProject] using hroot
  · obtain ⟨huuid, hproject⟩ := uuid_text_of_project? hnot h
    exact ⟨huuid, hproject, hlies h⟩
  · obtain ⟨r, hr, hc, -⟩ := project?_eq_some_iff.1 h
    obtain ⟨d, hd, -, hother⟩ := lastAt?_of_lastOf? hr
    obtain rfl : d = c := Option.some.inj (hd.symm.trans hc)
    exact hother hdisplaced (Id.ext_text htext)

/-- A root that is replaced, under its key, by that of another project. -/
def replacedRoot : List Component :=
  [⟨⟨"app"⟩, ⟨"A"⟩, ⟨"A"⟩⟩, ⟨⟨"app"⟩, ⟨"B"⟩, ⟨"B"⟩⟩]

/-- A root whose uuid another component had for a while. -/
def borrowedUuid : List Component :=
  [⟨⟨"one"⟩, ⟨"A"⟩, ⟨"A"⟩⟩, ⟨⟨"two"⟩, ⟨"A"⟩, ⟨"P"⟩⟩, ⟨⟨"two"⟩, ⟨"B"⟩, ⟨"P"⟩⟩]

/-- The uuid of the replaced root finds the root in its place, and the uuid that was borrowed finds
nothing, although the one component that has it is a root; the uuid in use finds its project. -/
theorem project_follows_registrations_sample :
    Displaced replacedRoot ⟨"A"⟩ ∧
    (ofComponents replacedRoot).project? ⟨"A"⟩ = some ⟨⟨"app"⟩, ⟨"B"⟩, ⟨"B"⟩⟩ ∧
    ¬Displaced replacedRoot ⟨"B"⟩ ∧
    (ofComponents replacedRoot).project? ⟨"B"⟩ = some ⟨⟨"app"⟩, ⟨"B"⟩, ⟨"B"⟩⟩ ∧
    Displaced borrowedUuid ⟨"A"⟩ ∧
    (ofComponents borrowedUuid).component? ⟨"one"⟩ = some ⟨⟨"one"⟩, ⟨"A"⟩, ⟨"A"⟩⟩ ∧
    (ofComponents borrowedUuid).project? ⟨"A"⟩ = none := by
  have hfound : (ofComponents replacedRoot).project? ⟨"B"⟩ = some ⟨⟨"app"⟩, ⟨"B"⟩, ⟨"B"⟩⟩ := by
    decide
  obtain ⟨-, -, -, -, -, hother⟩ := project_follows_registrations replacedRoot ⟨"B"⟩
  refine ⟨⟨[], _, [⟨⟨"app"⟩, ⟨"B"⟩, ⟨"B"⟩⟩], rfl, rfl, by decide, _, List.mem_singleton_self _,
    rfl⟩,
    by decide, fun h => hother h _ hfound rfl, hfound, ?_, by decide, by decide⟩
  exact ⟨[⟨⟨"one"⟩, ⟨"A"⟩, ⟨"A"⟩⟩], _, [⟨⟨"two"⟩, ⟨"B"⟩, ⟨"P"⟩⟩], rfl, rfl, by decide, _,
    List.mem_singleton_self _, rfl⟩

end Catalog

end Triage
