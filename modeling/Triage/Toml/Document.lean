import Triage.Toml.Number

/-!
# Configuration documents

The values of a configuration file, and the rules by which its tables grow.  A table may be opened
by a header once, and extended by dotted keys only where dotted keys made it; a table written in
line and an array written in line are complete.
-/

namespace Triage

namespace Toml

/-- How a table came to be: by its own header, on the way to a deeper header, by dotted keys, or
written in line. -/
inductive Origin
  | header
  | passage
  | dotted
  | inline
deriving DecidableEq, Repr

end Toml

/-- A value.  Tables that share a header are listed newest first. -/
inductive Toml
  | string (s : String)
  | number (n : Toml.Number)
  | boolean (b : Bool)
  | moment
  | array (items : List Toml)
  | tables (newestFirst : List (List (String × Toml)))
  | table (origin : Toml.Origin) (entries : List (String × Toml))
deriving Inhabited

namespace Toml

/-- The entries of a table, each name once. -/
abbrev Entries := List (String × Toml)

mutual

/-- Whether all numbers in the value have values. -/
def isReadable : Toml → Bool
  | .number n => n.hasValue
  | .array items => allReadable items
  | .tables ts => allTablesReadable ts
  | .table _ es => allEntriesReadable es
  | _ => true

/-- Whether all numbers in the values have values. -/
def allReadable : List Toml → Bool
  | [] => true
  | t :: ts => t.isReadable && allReadable ts

/-- Whether all numbers in the entries have values. -/
def allEntriesReadable : List (String × Toml) → Bool
  | [] => true
  | (_, t) :: es => t.isReadable && allEntriesReadable es

/-- Whether all numbers in the tables have values. -/
def allTablesReadable : List (List (String × Toml)) → Bool
  | [] => true
  | es :: ts => allEntriesReadable es && allTablesReadable ts

end

/-- The entries with `name` set. -/
def Entries.set (es : Entries) (name : String) (v : Toml) : Entries :=
  (name, v) :: es.filter fun e => e.1 ≠ name

/-- A table that is reached through names, and what becomes of its entries there. -/
abbrev Visit := Origin → Entries → Option Entries

/-- Follows names to a table and applies `visit` to it.  Missing tables on the way are made; an
array of tables is followed into its newest table.  Dotted keys do not pass through tables that a
header opened. -/
def follow (made : Origin) (visit : Visit) (origin : Origin) (es : Entries) :
    List String → Option Entries
  | [] => visit origin es
  | name :: names =>
    match es.lookup name with
    | none => do
      let inner ← follow made visit made [] names
      return es.set name (.table made inner)
    | some (.tables (newest :: older)) => do
      let inner ← follow made visit .header newest names
      return es.set name (.tables (inner :: older))
    | some (.table o inner) =>
      if o = .inline ∨ made = .dotted ∧ o = .header then none
      else do
        let inner ← follow made visit o inner names
        return es.set name (.table o inner)
    | some _ => none

/-- Sets a name that is not yet there. -/
def define (name : String) (v : Toml) : Visit := fun _ es =>
  if (es.lookup name).isSome then none else some (es.set name v)

/-- Sets a name in a table made by dotted keys. -/
def defineDotted (name : String) (v : Toml) : Visit := fun origin es =>
  if origin = .dotted then define name v origin es else none

/-- The entries with a value at a key; names before the last are dotted ones. -/
def Entries.insert? (es : Entries) (names : List String) (v : Toml) : Option Entries :=
  match names with
  | [] => none
  | [name] => define name v .header es
  | name :: more =>
    follow .dotted (defineDotted ((name :: more).getLast (List.cons_ne_nil _ _)) v) .header es
      (name :: more).dropLast

/-- Opens a table by its header. -/
def openTable (name : String) : Visit := fun _ es =>
  match es.lookup name with
  | none => some (es.set name (.table .header []))
  | some (.table .passage inner) => some (es.set name (.table .header inner))
  | some _ => none

/-- Adds a table to those that share a header. -/
def openNext (name : String) : Visit := fun _ es =>
  match es.lookup name with
  | none => some (es.set name (.tables [[]]))
  | some (.tables ts) => some (es.set name (.tables ([] :: ts)))
  | some _ => none

/-- A document under way: its root, and the names of the table that is open. -/
structure Document where
  root : Entries := []
  opened : List String := []

namespace Document

/-- The document with another table open. -/
def start? (d : Document) (next : Bool) (names : List String) : Option Document :=
  match names.getLast? with
  | none => none
  | some last => do
    let root ← follow .passage (if next then openNext last else openTable last) .header d.root
      names.dropLast
    return ⟨root, names⟩

/-- The document with a value at a key of the open table. -/
def insert? (d : Document) (names : List String) (v : Toml) : Option Document := do
  let root ← follow .passage (fun _ es => es.insert? names v) .header d.root d.opened
  return { d with root := root }

end Document

end Toml

end Triage
