import Triage.Json.Parser
import Triage.Id
import Triage.KeyMap
import Triage.Label
import Triage.Record
import Triage.TextSet
import Triage.Timestamp

/-!
# JSON forms

How the basic types are written as JSON values and read back.  Reading is strict about types and
ranges; records may be objects or arrays of their fields.
-/

namespace Triage

/-- A type with a JSON form. -/
class JsonForm (α : Type) where
  toJson : α → Json
  ofJson? : Json → Option α

export JsonForm (toJson)

namespace Json

/-- The text of a string value. -/
def text? : Json → Option String
  | .string s => s
  | _ => none

/-- The integer of a number value. -/
def int? : Json → Option Int
  | .number n => n.toInt?
  | _ => none

/-- The integer of a number value in the range of an unsigned word of the given width. -/
def natBelow? (width : Nat) (j : Json) : Option Nat := do
  let i ← j.int?
  if 0 ≤ i ∧ i < Int.pow 2 width then some i.toNat else none

/-- The integer of a number value in the range of a signed 64-bit word. -/
def int64? (j : Json) : Option Int64 := do
  let i ← j.int?
  if Int64.minValue.toInt ≤ i ∧ i ≤ Int64.maxValue.toInt then some (Int64.ofInt i) else none

/-- The word that names a value of a closed vocabulary: a string, or an object with the word as
its only member and nothing in it. -/
def word? : Json → Option String
  | .string s => s
  | .object [(s, .null)] => s
  | _ => none

/-- The names of the members with their values, if every name is a text. -/
def namedMembers? (members : List (JsonText × Json)) : Option (List (String × Json)) :=
  members.mapM fun m => m.1.map (·, m.2)

/-- The record that an object or an array is. -/
def record? (shape : RecordShape) : Json → Option (Record Json)
  | .object members => (namedMembers? members).bind shape.ofTable?
  | .array items => shape.ofRow? false items
  | _ => none

/-- The value, unless it is `null`. -/
def present? : Json → Option Json
  | .null => none
  | j => some j

/-- A value that may be `null`. -/
def nullable? {α : Type} (read : Json → Option α) (j : Json) : Option (Option α) :=
  match j.present? with
  | none => some none
  | some j => (read j).map some

/-- The items of an array. -/
def listOf? {α : Type} (read : Json → Option α) : Json → Option (List α)
  | .array items => items.mapM read
  | _ => none

/-- A value of a closed vocabulary as its label. -/
def ofLabel {α : Type} [Label α] (a : α) : Json := .text (label a)

/-- The value of a closed vocabulary that a label names. -/
def labelled? {α : Type} [Label α] (j : Json) : Option α := j.word?.bind Label.ofLabel?

end Json

/-- A vocabulary written as its labels. -/
@[reducible]
def JsonForm.ofLabels (α : Type) [Label α] : JsonForm α where
  toJson := Json.ofLabel
  ofJson? := Json.labelled?

instance : JsonForm String where
  toJson := Json.text
  ofJson? := Json.text?

instance : JsonForm Bool where
  toJson := Json.bool
  ofJson?
    | .bool b => some b
    | _ => none

/-- Counts are unsigned 64-bit words. -/
instance : JsonForm Nat where
  toJson := Json.nat
  ofJson? := Json.natBelow? 64

instance : JsonForm UInt32 where
  toJson n := Json.nat n.toNat
  ofJson? j := (j.natBelow? 32).map UInt32.ofNat

instance : JsonForm Int64 where
  toJson n := Json.int n.toInt
  ofJson? := Json.int64?

instance : JsonForm Binary64 where
  toJson := Json.binary64
  ofJson?
    | .number n => n.toBinary64?
    | _ => none

instance {k : IdKind} : JsonForm (Id k) where
  toJson i := Json.text i.text
  ofJson? j := j.text?.map Id.mk

instance : JsonForm Timestamp where
  toJson t := toJson t.millis
  ofJson? j := (JsonForm.ofJson? j).map Timestamp.mk

instance {α : Type} [JsonForm α] : JsonForm (List α) where
  toJson xs := .array (xs.map toJson)
  ofJson? := Json.listOf? JsonForm.ofJson?

instance {α : Type} [JsonForm α] : JsonForm (Option α) where
  toJson o := Json.optional (o.map toJson)
  ofJson? := Json.nullable? JsonForm.ofJson?

instance : JsonForm TextSet where
  toJson s := toJson s.toList
  ofJson? j := (JsonForm.ofJson? j).map TextSet.ofList

/-- A map by name is an object; of two members with one name the later one stands. -/
instance {k : IdKind} {α : Type} [JsonForm α] : JsonForm (KeyMap k α) where
  toJson m := Json.record (m.entries.map fun e => (e.1.text, toJson e.2))
  ofJson?
    | .object members => do
      let named ← Json.namedMembers? members
      named.foldlM (fun m e => do return m.insert ⟨e.1⟩ (← JsonForm.ofJson? e.2)) ∅
    | _ => none

namespace Record

variable {α : Type} [JsonForm α]

/-- A field that must be there. -/
def field (r : Record Json) (name : String) : Option α := r.required name JsonForm.ofJson?

/-- A field that may be missing or `null`. -/
def optionalField (r : Record Json) (name : String) : Option (Option α) :=
  r.withDefault name none JsonForm.ofJson?

/-- A field that may be missing. -/
def defaultField (r : Record Json) (name : String) (default : α) : Option α :=
  r.withDefault name default JsonForm.ofJson?

end Record

/-- The JSON text of a value. -/
def jsonText {α : Type} [JsonForm α] (a : α) : String := (toJson a).print

/-- The value that a JSON text is. -/
def ofJsonText? {α : Type} [JsonForm α] (s : String) : Option α :=
  (Json.parse? s).bind JsonForm.ofJson?

/-- The value that the bytes encode. -/
def ofJsonBytes? {α : Type} [JsonForm α] (bytes : ByteArray) : Option α :=
  (Json.parseBytes? bytes).bind JsonForm.ofJson?

end Triage
