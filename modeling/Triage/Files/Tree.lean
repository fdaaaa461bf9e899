import Triage.Files.Path

/-!
# Files

A tree of directories and files, and the directory in which relative paths start.  Places in the
tree are lists of names from the root.
-/

namespace Triage

/-- A file with its content, or a directory with its entries. -/
inductive FileTree
  | file (content : ByteArray)
  | dir (entries : List (String × FileTree))
deriving Inhabited

namespace FileTree

/-- Whether the node is a directory. -/
def isDir : FileTree → Bool
  | .dir _ => true
  | .file _ => false

/-- The node at a place. -/
def get? (t : FileTree) : List String → Option FileTree
  | [] => some t
  | n :: ns =>
    match t with
    | .file _ => none
    | .dir es => (es.lookup n).bind fun t => t.get? ns

/-- Whether a file stands where the way to a place needs a directory. -/
def bars (t : FileTree) : List String → Bool
  | [] => false
  | n :: ns =>
    match t with
    | .file _ => true
    | .dir es => (es.lookup n).any fun t => t.bars ns

/-- The tree with `new` at a place, whose directories are made where they are missing. -/
def put (t : FileTree) (new : FileTree) : List String → FileTree
  | [] => new
  | n :: ns =>
    match t with
    | .file c => .file c
    | .dir es =>
      .dir ((n, ((es.lookup n).getD (.dir [])).put new ns) :: es.filter fun e => e.1 ≠ n)

end FileTree

/-- A file system with a working directory. -/
structure Files where
  root : FileTree
  workingDir : List String

namespace Files

/-- A file system with nothing but an empty working directory. -/
def empty : Files := ⟨.dir [("work", .dir [])], ["work"]⟩

instance : Inhabited Files := ⟨empty⟩

/-- The node at a place. -/
def get? (f : Files) (place : List String) : Option FileTree := f.root.get? place

/-- Whether there is a directory at a place. -/
def isDirAt (f : Files) (place : List String) : Bool := (f.get? place).any FileTree.isDir

/-- The files with `t` at a place. -/
def put (f : Files) (place : List String) (t : FileTree) : Files :=
  { f with root := f.root.put t place }

/-- Whether the system takes the text as one name. -/
def isName (n : String) : Bool :=
  n.utf8ByteSize ≤ Path.maxNameBytes && !n.toList.contains '\x00'

/-- The place where the walk along a path starts. -/
def start (f : Files) (p : Path) : List String := if p.isAbsolute then [] else f.workingDir

/-- The place that a name leads to from a directory, whether or not something is there. -/
def enter? (f : Files) (place : List String) (n : String) : Option (List String) :=
  if !f.isDirAt place then none
  else if n = "." then some place
  else if n = ".." then some place.dropLast
  else if isName n then some (place ++ [n])
  else none

/-- The place of what the path names, if it could be there: all directories on the way are. -/
def place? (f : Files) (p : Path) : Option (List String) :=
  if p.text.isEmpty || Path.maxBytes ≤ p.text.utf8ByteSize then none
  else p.segments.foldlM f.enter? (f.start p)

/-- What the path names. -/
def find? (f : Files) (p : Path) : Option FileTree :=
  ((f.place? p).bind f.get?).filter fun t => t.isDir || !p.endsInSlash

/-- The content of the file that the path names. -/
def read? (f : Files) (p : Path) : Option ByteArray :=
  match f.find? p with
  | some (.file content) => some content
  | _ => none

/-- The place of a file that can be written to at the path: one that is there, or a new one. -/
def writable? (f : Files) (p : Path) : Option (List String) :=
  if p.endsInSlash then none
  else (f.place? p).filter fun place => !f.isDirAt place

/-- The files with the directories that the names move through, and the place they lead to. -/
def makeDirs (f : Files) (place : List String) : List String → Option (List String × Files)
  | [] => some (place, f)
  | n :: ns => do
    let next ← f.enter? place n
    match f.get? next with
    | some (.dir _) => f.makeDirs next ns
    | some (.file _) => none
    | none => (f.put next (.dir [])).makeDirs next ns

end Files

end Triage
