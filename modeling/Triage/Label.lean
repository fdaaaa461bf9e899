/-!
# Labels

Finite types whose values are written as fixed words, and reading such a word back.
-/

namespace Triage

/-- A finite type whose values have a fixed spelling each.  `noun` names the type in messages;
`sameSpelling` tells which spellings a reader takes for the same. -/
class Label (α : Type) where
  noun : String
  all : List α
  label : α → String
  sameSpelling : String → String → Bool := (· == ·)

export Label (label)

/-- A word that is the label of nothing. -/
structure UnknownLabel where
  noun : String
  word : String
deriving DecidableEq, Repr

/-- The text of the error. -/
def UnknownLabel.message (e : UnknownLabel) : String := "unknown " ++ e.noun ++ ": " ++ e.word

namespace Label

variable {α : Type} [Label α]

/-- The value whose label is exactly `word`. -/
def ofLabel? (word : String) : Option α := (all (α := α)).find? fun a => label a == word

/-- The value whose label is spelled like `word`. -/
def parse (word : String) : Except UnknownLabel α :=
  match (all (α := α)).find? fun a => sameSpelling α (label a) word with
  | some a => .ok a
  | none => .error ⟨noun α, word⟩

/-- Spellings that differ at most in the case of ASCII letters. -/
def sameLetters (a b : String) : Bool := a.toLower == b.toLower

end Label

end Triage
