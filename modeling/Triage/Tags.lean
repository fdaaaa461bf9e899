import Triage.Text.Blank
import Triage.Text.Lowercase
import Triage.TextSet

/-!
# Tags

From a list of tags as typed to the set that is stored: blank entries dropped, the rest in lower
case, none with white space in it, and not too many.
-/

namespace Triage

/-- Why a list of tags is refused. -/
inductive TagError
  | invalidFormat (tag : String)
  | tooMany (max actual : Nat)
deriving DecidableEq, Repr

/-- The text of the error. -/
def TagError.message : TagError → String
  | .invalidFormat tag => "Tag '" ++ tag ++ "' is invalid: tags must not contain whitespace"
  | .tooMany max actual => s!"too many tags: {actual} (max {max})"

namespace Tags

/-- Whether `tag` can be stored. -/
def isValid (tag : String) : Bool := tag ≠ "" && !Text.hasBlank tag

/-- The set of the lower-case forms of the entries, or the first entry whose form is no tag. -/
def collect (found : TextSet) : List String → Except TagError TextSet
  | [] => .ok found
  | t :: ts =>
    let form := Text.lowercase t
    if isValid form then collect (found.insert form) ts else .error (.invalidFormat t)

/-- The tags to store for the entries, of which at most `max` may remain. -/
def normalize (entries : List (Option String)) (max : Nat) : Except TagError TextSet := do
  let found ← collect ∅ ((entries.filterMap id).filter fun t => !Text.allBlank t)
  if max < found.size then .error (.tooMany max found.size) else .ok found

end Tags

end Triage
