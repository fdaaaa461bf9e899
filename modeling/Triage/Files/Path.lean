/-!
# Paths

Texts that name files: the names between the slashes, and the limits that a path has to keep.
Lengths are counted in bytes.
-/

namespace Triage

/-- A path. -/
structure Path where
  text : String
deriving DecidableEq, Repr

namespace Path

/-- The pieces of a text between slashes, empty ones included. -/
def pieces : List Char → List (List Char)
  | [] => [[]]
  | c :: cs =>
    if c = '/' then [] :: pieces cs
    else match pieces cs with
      | [] => [[c]]
      | p :: ps => (c :: p) :: ps

/-- The names in the path. -/
def segments (p : Path) : List String :=
  ((pieces p.text.toList).filter fun s => !s.isEmpty).map String.ofList

/-- Whether the path starts at the root of the file system. -/
def isAbsolute (p : Path) : Bool := p.text.toList.head? = some '/'

/-- Whether the path can only name a directory. -/
def endsInSlash (p : Path) : Bool := p.text.toList.getLast? = some '/'

/-- The names that move along the path; a single dot does so only at the start. -/
def components (p : Path) : List String :=
  match p.segments with
  | [] => []
  | s :: ss => if s = "." ∧ p.isAbsolute then ss.filter (· ≠ ".") else s :: ss.filter (· ≠ ".")

/-- The names that move to the directory that the path lies in; a path without names lies
nowhere. -/
def parent? (p : Path) : Option (List String) :=
  match p.components with
  | [] => none
  | cs => some cs.dropLast

/-- The most bytes that a path may have. -/
def maxBytes : Nat := 4096

/-- The most bytes that a name in a path may have. -/
def maxNameBytes : Nat := 255

/-- Whether the path has more bytes than a path may have. -/
def isOverlong (p : Path) : Bool := maxBytes < p.text.utf8ByteSize

/-- Whether some name in the path has more bytes than a name may have. -/
def hasOverlongName (p : Path) : Bool := p.components.any fun s => maxNameBytes < s.utf8ByteSize

end Path

end Triage
