import Triage.Codec.Basic

/-!
# Members of an object

Reading an object one member at a time, with errors that tell which member could not be read.
A member that is `null` counts as missing.
-/

namespace Triage

/-- Why an object cannot be read: a member is missing or of another type, or the word in it is the
label of nothing. -/
inductive MemberError
  | unreadable (name : String)
  | unknownLabel (e : UnknownLabel)
deriving DecidableEq, Repr

namespace Json

variable {α : Type}

/-- The value of a member. -/
def member? (j : Json) (name : String) : Option Json :=
  match j with
  | .object members => ((members.find? fun m => m.1 = some name).map (·.2)).bind present?
  | _ => none

/-- The items of an array. -/
def items? : Json → Option (List Json)
  | .array items => some items
  | _ => none

/-- A member that may be missing, by a reader. -/
def memberBy? (j : Json) (name : String) (read : Json → Option α) :
    Except MemberError (Option α) :=
  match j.member? name with
  | none => .ok none
  | some v =>
    match read v with
    | some a => .ok (some a)
    | none => .error (.unreadable name)

/-- A member that must be there, by a reader. -/
def memberBy (j : Json) (name : String) (read : Json → Option α) : Except MemberError α := do
  match ← j.memberBy? name read with
  | some a => return a
  | none => throw (.unreadable name)

section Form

variable [JsonForm α]

/-- A member that must be there. -/
def need (j : Json) (name : String) : Except MemberError α := j.memberBy name JsonForm.ofJson?

/-- A member that may be missing. -/
def maybe (j : Json) (name : String) : Except MemberError (Option α) :=
  j.memberBy? name JsonForm.ofJson?

/-- A member with a default. -/
def orElse (j : Json) (name : String) (default : α) : Except MemberError α :=
  return (← j.maybe name).getD default

end Form

/-- The items of a member; none if it is missing. -/
def list (j : Json) (name : String) : Except MemberError (List Json) :=
  return (← j.memberBy? name items?).getD []

section Words

variable [Label α]

/-- The value that a word spells. -/
def ofWord (word : String) : Except MemberError α := (Label.parse word).mapError .unknownLabel

/-- A label that must be there. -/
def needWord (j : Json) (name : String) : Except MemberError α := do ofWord (← j.need name)

/-- A label that may be missing. -/
def maybeWord (j : Json) (name : String) : Except MemberError (Option α) := do
  match ← (j.maybe name : Except MemberError (Option String)) with
  | none => return none
  | some word => return some (← ofWord word)

/-- A list of labels; none if it is missing. -/
def words (j : Json) (name : String) : Except MemberError (List α) := do
  ((← j.orElse name []) : List String).mapM ofWord

end Words

end Json

end Triage
