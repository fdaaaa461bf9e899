import Triage.Files.Path
import Triage.Label
import Triage.Text.Percent

/-!
# Addresses of databases

What a path means to the database engine.  A text that starts with `file:` is a reference: the name
of a file in percent-encoded text, then a question mark and parameters that say how the file is
opened, then a number sign and a part that is ignored.  Every other text is a name by itself.
-/

namespace Triage

/-- What may be done with a database: reading, writing too, making it, or all of it in memory. -/
inductive AccessMode
  | readOnly
  | readWrite
  | create
  | memory
deriving DecidableEq, Repr

instance : Label AccessMode where
  noun := "access mode"
  all := [.readOnly, .readWrite, .create, .memory]
  label
    | .readOnly => "ro"
    | .readWrite => "rw"
    | .create => "rwc"
    | .memory => "memory"

/-- Whether the second mode asks for no more than the first allows.  Anything may be asked for in
place of memory, and memory in place of anything. -/
def AccessMode.allows : AccessMode → AccessMode → Bool
  | _, .memory => true
  | .memory, _ => true
  | .create, _ => true
  | .readWrite, m => m ≠ .create
  | .readOnly, m => m = .readOnly

/-- Whether connections to one database see the same pages. -/
inductive CacheMode
  | shared
  | separate
deriving DecidableEq, Repr

instance : Label CacheMode where
  noun := "cache mode"
  all := [.shared, .separate]
  label
    | .shared => "shared"
    | .separate => "private"

/-- How files are read, written and locked: with locks of the system, held as long as the file is
open or not, with lock files, without locks, or not as files at all. -/
inductive FileDriver
  | system
  | exclusive
  | lockFile
  | unlocked
  | memory
deriving DecidableEq, Repr

instance : Label FileDriver where
  noun := "file driver"
  all := [.system, .exclusive, .lockFile, .unlocked, .memory]
  label
    | .system => "unix"
    | .exclusive => "unix-excl"
    | .lockFile => "unix-dotfile"
    | .unlocked => "unix-none"
    | .memory => "memdb"

/-- The name of a database and the parameters it is opened with, in their order. -/
structure Address where
  name : String
  parameters : List (String × String) := []
deriving DecidableEq, Repr

namespace Address

/-! ## Reading -/

/-- What follows the host in a reference, which may only name this machine. -/
def skipHost? : List Char → Option (List Char)
  | '/' :: '/' :: cs =>
    let host := String.ofList (cs.takeWhile (· ≠ '/'))
    if host = "" ∨ host = "localhost" then some (cs.dropWhile (· ≠ '/')) else none
  | cs => some cs

/-- A parameter and its value; one without a name is left out. -/
def parameter? (cs : List Char) : Option (String × String) :=
  let (name, value) := cs.span (· ≠ '=')
  let name := Text.percentDecode name
  if name.isEmpty then none else some (name, Text.percentDecode (value.drop 1))

/-- The address that a reference writes behind its scheme. -/
def ofReference? (cs : List Char) : Option Address := do
  let cs ← skipHost? cs
  let (path, query) := (cs.takeWhile (· ≠ '#')).span (· ≠ '?')
  let pieces := (String.ofList (query.drop 1)).splitOn "&"
  return ⟨Text.percentDecode path, pieces.filterMap fun s => parameter? s.toList⟩

/-- The address that a path is, unless it is a reference to another machine. -/
def ofPath? (p : Path) : Option Address :=
  if "file:".isPrefixOf p.text then ofReference? (p.text.toList.drop 5) else some ⟨p.text, []⟩

/-! ## Parameters -/

/-- The access mode after all parameters that set it, if none asks for too much. -/
def mode? (a : Address) : Option AccessMode :=
  (a.parameters.filter (·.1 = "mode")).foldlM
    (fun (m : AccessMode) e => (Label.ofLabel? e.2).filter m.allows) .create

/-- The last cache mode, if all of them are known. -/
def cache? (a : Address) : Option CacheMode :=
  (a.parameters.filter (·.1 = "cache")).foldlM (fun _ e => Label.ofLabel? e.2) .separate

/-- The file driver that is named last, if it is known. -/
def driver? (a : Address) : Option FileDriver :=
  match (a.parameters.filter (·.1 = "vfs")).getLast? with
  | none => some .system
  | some e => Label.ofLabel? e.2

/-- The number at the front of the characters, in base sixteen if `0x` and a digit follow each
other there. -/
def frontNumber? (cs : List Char) : Option Nat :=
  let digits := cs.takeWhile Char.isDigit
  let hexDigits := (cs.drop 2).takeWhile fun c => (Text.hexValue? c).isSome
  if (cs.take 2 = ['0', 'x'] ∨ cs.take 2 = ['0', 'X']) ∧ !hexDigits.isEmpty then
    Text.hexNumber? hexDigits
  else if digits.isEmpty then none
  else some (digits.foldl (fun n c => n * 10 + (c.toNat - 48)) 0)

/-- Whether a value switches something on: a number that is not a multiple of 256, or a word. -/
def isOn (value : String) : Bool :=
  match frontNumber? value.toList with
  | none => ["on", "yes", "true"].contains value.toLower
  | some n => n < Nat.pow 2 31 && n % 256 ≠ 0

/-- Whether the address switches a parameter on. -/
def switches (a : Address) (name : String) : Bool := (a.parameters.lookup name).any isOn

/-- Whether the name is one that no file has: the empty one, and the one for memory. -/
def isNameless (a : Address) : Bool := a.name = "" || a.name = ":memory:"

end Address

end Triage
