/-!
# Text from 16-bit units

Escapes name characters by 16-bit units, and a character above the 16-bit range by a pair of
them: a leading unit followed by a trailing one.  `Units` collects characters and units; a leading
or trailing unit without its partner leaves no text, and neither does a byte that belongs to no
character.
-/

namespace Triage.Text

/-- A text in the making: the characters so far in reverse, a leading unit that waits for its
partner, and whether some unit stayed without one or some byte belongs to no character. -/
structure Units where
  done : List Char := []
  leading : Option Nat := none
  broken : Bool := false
deriving DecidableEq, Repr

namespace Units

/-- Whether the unit is the first of a pair. -/
def isLeading (u : Nat) : Bool := 0xD800 ≤ u && u ≤ 0xDBFF

/-- Whether the unit is the second of a pair. -/
def isTrailing (u : Nat) : Bool := 0xDC00 ≤ u && u ≤ 0xDFFF

/-- The character that a pair names. -/
def pairChar (lead trail : Nat) : Char :=
  Char.ofNat (0x10000 + (lead - 0xD800) * 0x400 + (trail - 0xDC00))

/-- The text followed by a character. -/
def char (s : Units) (c : Char) : Units := ⟨c :: s.done, none, s.broken || s.leading.isSome⟩

/-- The text followed by a unit. -/
def unit (s : Units) (u : Nat) : Units :=
  match s.leading with
  | some lead =>
    if isTrailing u then ⟨pairChar lead u :: s.done, none, s.broken⟩
    else if isLeading u then ⟨s.done, some u, true⟩
    else ⟨Char.ofNat u :: s.done, none, true⟩
  | none =>
    if isLeading u then ⟨s.done, some u, s.broken⟩
    else if isTrailing u then ⟨s.done, none, true⟩
    else ⟨Char.ofNat u :: s.done, none, s.broken⟩

/-- The text followed by a byte that belongs to no character. -/
def stray (s : Units) : Units := { s with broken := true }

/-- The text, if every unit found its partner and every byte belongs to a character. -/
def finish? (s : Units) : Option String :=
  if s.broken || s.leading.isSome then none else some (String.ofList s.done.reverse)

end Units

end Triage.Text
