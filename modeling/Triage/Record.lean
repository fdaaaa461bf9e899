/-!
# Records in data files

A record in a data file is either a table of named members or a row of its fields in order.  Both
are read into the values of the declared fields by name.
-/

namespace Triage

/-- The fields of a record in order.  In a row, those after the first `leading` may be left off. -/
structure RecordShape where
  fields : List String
  leading : Nat

/-- The values found for the declared fields, at most one for each. -/
structure Record (α : Type) where
  found : List (String × α)

namespace RecordShape

variable {α : Type}

/-- A record of required fields. -/
def ofFields (fields : List String) : RecordShape := ⟨fields, fields.length⟩

/-- The record of a table: members that are not declared are dropped, a declared one must not be
repeated. -/
def ofTable? (shape : RecordShape) (members : List (String × α)) : Option (Record α) :=
  let known := members.filter fun m => shape.fields.contains m.1
  if (known.map (·.1)).Nodup then some ⟨known⟩ else none

/-- The record of a row, which may only be longer than the declared fields if `surplus` says so. -/
def ofRow? (shape : RecordShape) (surplus : Bool) (items : List α) : Option (Record α) :=
  if items.length < shape.leading then none
  else if shape.fields.length < items.length && !surplus then none
  else some ⟨shape.fields.zip items⟩

end RecordShape

namespace Record

variable {α β : Type}

/-- The value of a field. -/
def get? (r : Record α) (field : String) : Option α := r.found.lookup field

/-- A field that must be there. -/
def required (r : Record α) (field : String) (read : α → Option β) : Option β :=
  (r.get? field).bind read

/-- A field that has a default. -/
def withDefault (r : Record α) (field : String) (default : β) (read : α → Option β) : Option β :=
  match r.get? field with
  | none => some default
  | some a => read a

end Record

end Triage
