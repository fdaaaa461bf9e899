import Triage.Files.Tree
import Triage.Outcome
import Triage.Store.Address
import Triage.Store.Database
import Triage.Store.Settings

/-!
# Where a database lies

The checks of a store's path, the directories made for it, and the file or the memory that its
address leads to.  The checks and the directories go by the text of the path, whatever its address
means to the engine.  A store that is opened once more goes through all of it again.
-/

namespace Triage

namespace Path

/-- The first reason why no store can lie at the path. -/
def checkStore (p : Path) (f : Files) : Except DatabaseError Unit :=
  if p.text.isEmpty then .error (.invalid "store path is empty")
  else if p.isOverlong then .error (.invalid "store path exceeds length limit")
  else if p.hasOverlongName then
    .error (.invalid "store path contains an overlong component")
  else if (f.find? p).any FileTree.isDir then
    .error (.invalid "store path must be a file, not a directory")
  else .ok ()

/-- The files with the directory that the path lies in. -/
def makeParent (p : Path) (f : Files) : Except DatabaseError Files :=
  match p.parent? with
  | none => .error (.io "store path missing parent directory")
  | some names =>
    match f.makeDirs (f.start p) names with
    | some (_, f) => .ok f
    | none => .error (.io "parent directory cannot be made")

end Path

/-- A database that is about to be opened: the place of its file unless it lies in memory, whether
other connections see it, whether it can be written to, whether it can keep a log of writes beside
the file, and whether the index of that log is a file too. -/
structure DatabaseSite where
  place : Option (List String) := none
  isPrivate : Bool := false
  isReadOnly : Bool := false
  canLog : Bool := false
  hasIndexFile : Bool := false

namespace DatabaseSite

/-! ## Files -/

/-- The most bytes that a place on the way to a database file may have. -/
def maxWalkBytes : Nat := 487

/-- The most bytes that the place of a database file may have: the place of its journal may be one
byte longer than a place on the way. -/
def maxPlaceBytes : Nat := maxWalkBytes + 1 - "-journal".utf8ByteSize

/-- The bytes of a place written as a path. -/
def placeBytes (place : List String) : Nat :=
  place.foldl (fun n s => n + 1 + s.utf8ByteSize) 0

/-- The place beside the database under its name with a suffix. -/
def sibling? (s : DatabaseSite) (suffix : String) : Option (List String) :=
  s.place.map fun place => place.dropLast ++ [place.getLast?.getD "" ++ suffix]

/-- Whether a directory is in the way of a file that the engine keeps beside the database. -/
def isBlocked (s : DatabaseSite) (f : Files) (suffix : String) : Bool :=
  (s.sibling? suffix).any f.isDirAt

/-- The refusal of the engine to open a file. -/
def cannotOpen {α : Type} : Except DatabaseError α :=
  .error (.engine "unable to open database file")

/-- The place that a name leads to from another.  `..` undoes the name before it, whatever is there;
any other name is looked up, and may be missing but not out of reach. -/
def walk (f : Files) (place : List String) (n : String) : Except DatabaseError (List String) :=
  if n = "." then .ok place
  else if n = ".." then .ok place.dropLast
  else
    let next := place ++ [n]
    if maxWalkBytes < placeBytes next ∨ f.root.bars next then cannotOpen else .ok next

/-- The files with the database file at a place, which is made if it may be.  A file of one byte
counts as empty. -/
def makeFile (f : Files) (place : List String) (mode : AccessMode) :
    Except DatabaseError Files :=
  let name := place.getLast?.getD ""
  if !Files.isName name ∨ maxPlaceBytes < placeBytes place then cannotOpen
  else
    match f.get? place with
    | some (.dir _) => cannotOpen
    | some (.file content) =>
      if content.size ≤ 1 then .ok f else .error (.engine "file is not a database")
    | none =>
      if mode = .create ∧ f.isDirAt place.dropLast then .ok (f.put place (.file .empty))
      else cannotOpen

/-! ## Connecting -/

/-- The site in memory that the address leads to, if it does.  It is shared by a shared cache, and
by the driver for memory if the name is rooted. -/
def inMemory? (a : Address) (mode : AccessMode) (cache : CacheMode) (driver : FileDriver) :
    Option DatabaseSite :=
  let isShared := a.name ≠ "" && cache = .shared
  if mode = .memory || a.isNameless then
    some { isPrivate := !isShared, isReadOnly := mode = .readOnly }
  else if driver = .memory then
    let cs := a.name.toList
    let isRooted := (cs.head? = some '/' || cs.head? = some '\\') && cs.length ≠ 1
    some {
      isPrivate := !isShared && !isRooted
      isReadOnly := mode = .readOnly || a.switches "immutable" }
  else none

/-- The site that the address leads to, and the files with the database file at it. -/
def ofAddress (f : Files) (a : Address) : Except DatabaseError (DatabaseSite × Files) :=
  match a.mode?, a.cache?, a.driver? with
  | some mode, some cache, some driver =>
    match inMemory? a mode cache driver with
    | some s => .ok (s, f)
    | none =>
      if (a.parameters.lookup "modeof").any fun name => (f.find? ⟨name⟩).isNone then cannotOpen
      else do
        let p : Path := ⟨a.name⟩
        let place ← p.segments.foldlM (walk f) (f.start p)
        let f ← makeFile f place mode
        let isFixed := a.switches "immutable"
        let isLocking := !isFixed && !a.switches "nolock"
        let s : DatabaseSite := {
          place := some place
          isReadOnly := mode = .readOnly || isFixed
          canLog := (driver = .system || driver = .exclusive) && isLocking
          hasIndexFile := driver = .system }
        if driver = .lockFile && isLocking && ((s.sibling? ".lock").bind f.get?).isSome then
          throw (.engine "database is locked")
        if s.isBlocked f "-wal" then cannotOpen else return (s, f)
  | _, _, _ => .error (.engine "parameter of address not understood")

/-- The site that the path leads to, and the files with the database file at it. -/
def ofPath (f : Files) (p : Path) : Except DatabaseError (DatabaseSite × Files) :=
  if p.text.toList.contains '\x00' then .error (.engine "path holds a null character")
  else
    match Address.ofPath? p with
    | none => .error (.engine "invalid authority in address")
    | some a => ofAddress f a

/-- Whether a log of writes is kept. -/
def logs (s : DatabaseSite) (mode : JournalMode) : Bool := s.canLog && mode = .wal

/-- Refuses a database that the first write to it would fail on, as its journal cannot be made. -/
def checkWrite (s : DatabaseSite) (f : Files) : Except DatabaseError Unit :=
  let journal := s.sibling? "-journal"
  if s.isReadOnly then .error (.engine "attempt to write a readonly database")
  else if journal.any fun place => f.isDirAt place || !place.all Files.isName then cannotOpen
  else .ok ()

/-- The database at the site, with the tables made that a store needs; `held` is the one that
another connection holds there. -/
def prepare (s : DatabaseSite) (f : Files) (mode : JournalMode) (held : Option Database) :
    Except DatabaseError Database := do
  s.checkWrite f
  if s.logs mode ∧ s.hasIndexFile ∧ s.isBlocked f "-shm" then cannotOpen
  (held.getD { isPrivate := s.isPrivate }).reopened

end DatabaseSite

namespace Database

/-- Connects to the database of a store.  The first write is due here if a log is to be kept. -/
def connect (f : Files) (settings : DatabaseSettings) :
    Except DatabaseError (DatabaseSite × Files) := do
  let p : Path := ⟨settings.path⟩
  p.checkStore f
  let f ← p.makeParent f
  let (s, f) ← DatabaseSite.ofPath f p
  if s.logs settings.journalMode then s.checkWrite f
  return (s, f)

/-- Opens the database of a store, which another connection may hold already.  A time to wait that
the engine cannot count breaks this off once the connection stands. -/
def openAt (f : Files) (settings : DatabaseSettings) (held : Option Database := none) :
    Outcome (Except DatabaseError (Database × Files)) :=
  match connect f settings with
  | .error e => .returned (.error e)
  | .ok (s, f) =>
    if maxBusyTimeoutMs < settings.busyTimeoutMs then .panicked
    else .returned ((s.prepare f settings.journalMode held).map fun db => (db, f))

/-- What a connection that is no store sees of a database that another holds. -/
def seenAt (db : Database) (f : Files) (p : Path) : Except DatabaseError Database :=
  (DatabaseSite.ofPath f p).map fun _ => db.elsewhere

end Database

end Triage
