/-!
# Identifiers

Opaque names of issues, rules, components, projects, users and action plans.  An identifier is
its text; the kind keeps names of different things apart.  Identifiers of one kind are ordered by
the code points of their texts.
-/

namespace Triage

/-- What an identifier names. -/
inductive IdKind
  | issue
  | rule
  | component
  | componentUuid
  | project
  | projectUuid
  | login
  | actionPlan
  | facet
deriving DecidableEq, Repr

/-- An opaque name for one thing of kind `k`. -/
structure Id (k : IdKind) where
  text : String
deriving DecidableEq, Repr

/-- Key of an issue row. -/
abbrev IssueKey := Id .issue

/-- Key of a rule, `repository:rule`. -/
abbrev RuleKey := Id .rule

/-- Key of a component: a project, a module or a file. -/
abbrev ComponentKey := Id .component

/-- Identifier of a component that survives a change of its key. -/
abbrev ComponentUuid := Id .componentUuid

/-- Key of a project. -/
abbrev ProjectKey := Id .project

/-- Identifier of a project that survives a change of its key. -/
abbrev ProjectUuid := Id .projectUuid

/-- Login of a user. -/
abbrev Login := Id .login

/-- Key of an action plan. -/
abbrev ActionPlanKey := Id .actionPlan

namespace Id

variable {k : IdKind}

instance : LT (Id k) := ⟨fun a b => a.text < b.text⟩

instance (a b : Id k) : Decidable (a < b) := inferInstanceAs (Decidable (a.text < b.text))

theorem lt_def {a b : Id k} : a < b ↔ a.text < b.text := Iff.rfl

theorem ext_text {a b : Id k} (h : a.text = b.text) : a = b := by
  cases a; cases b; simp_all

theorem lt_irrefl (a : Id k) : ¬a < a := String.lt_irrefl a.text

theorem lt_trans {a b c : Id k} (h₁ : a < b) (h₂ : b < c) : a < c := String.lt_trans h₁ h₂

theorem ne_of_lt {a b : Id k} (h : a < b) : a ≠ b := fun e => lt_irrefl b (e ▸ h)

theorem lt_of_not_lt_of_ne {a b : Id k} (h : ¬a < b) (ne : a ≠ b) : b < a :=
  Classical.byContradiction fun h' =>
    ne (ext_text (String.le_antisymm (String.not_lt.1 h') (String.not_lt.1 h)))

end Id

/-- The key of rule `rule` of `repository`. -/
def RuleKey.of (repository rule : String) : RuleKey := ⟨repository ++ ":" ++ rule⟩

end Triage
