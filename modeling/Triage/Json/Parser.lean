import Triage.Json.Token
import Triage.Text.Utf8

/-!
# Reading and writing JSON

A value is the text of its tokens.  The reader takes one token at a time and keeps the arrays and
objects that are still open as a list of frames, so that deep nesting needs no deep recursion.
-/

namespace Triage.Json

/-! ## Writing -/

mutual

/-- The tokens of a value. -/
def tokens : Json → List Token
  | .null => [.null]
  | .bool b => [.bool b]
  | .number n => [.number n]
  | .string s => [.string s]
  | .array items => .openArray :: itemTokens items ++ [.closeArray]
  | .object members => .openObject :: memberTokens members ++ [.closeObject]

/-- The tokens of the items of an array. -/
def itemTokens : List Json → List Token
  | [] => []
  | [j] => j.tokens
  | j :: js => j.tokens ++ .comma :: itemTokens js

/-- The tokens of the members of an object. -/
def memberTokens : List (JsonText × Json) → List Token
  | [] => []
  | [(k, j)] => .string k :: .colon :: j.tokens
  | (k, j) :: ms => .string k :: .colon :: j.tokens ++ .comma :: memberTokens ms

end

/-- The text of a value, without spaces. -/
def print (j : Json) : String := String.ofList (j.tokens.flatMap Token.chars)

/-! ## Reading -/

/-- An array or object that is still open, with what it holds so far in reverse; of an object also
the name of the member that comes next. -/
inductive Frame
  | array (done : List Json)
  | object (done : List (JsonText × Json)) (name : JsonText)

/-- What the reader takes next: any value; a value or the end of an array; a member or the end of
an object; a member; the colon after a name; or, with a value complete, what closes or continues
the frame around it. -/
inductive ReadMode
  | value
  | firstItem
  | firstMember
  | member (done : List (JsonText × Json))
  | colon (done : List (JsonText × Json)) (name : JsonText)
  | complete (j : Json)

/-- The reader: what it takes next, and the open frames, the innermost first. -/
structure Reader where
  mode : ReadMode := .value
  frames : List Frame := []

namespace Reader

/-- The reader takes the first token of a value. -/
def value? (frames : List Frame) : Token → Option Reader
  | .null => some ⟨.complete .null, frames⟩
  | .bool b => some ⟨.complete (.bool b), frames⟩
  | .number n => some ⟨.complete (.number n), frames⟩
  | .string s => some ⟨.complete (.string s), frames⟩
  | .openArray => some ⟨.firstItem, frames⟩
  | .openObject => some ⟨.firstMember, frames⟩
  | _ => none

/-- The reader takes a token. -/
def step? (r : Reader) (t : Token) : Option Reader :=
  match r.mode, t, r.frames with
  | .value, t, fs => value? fs t
  | .firstItem, .closeArray, fs => some ⟨.complete (.array []), fs⟩
  | .firstItem, t, fs => value? (.array [] :: fs) t
  | .firstMember, .closeObject, fs => some ⟨.complete (.object []), fs⟩
  | .firstMember, .string k, fs => some ⟨.colon [] k, fs⟩
  | .member done, .string k, fs => some ⟨.colon done k, fs⟩
  | .colon done k, .colon, fs => some ⟨.value, .object done k :: fs⟩
  | .complete j, .comma, .array done :: fs => some ⟨.value, .array (j :: done) :: fs⟩
  | .complete j, .closeArray, .array done :: fs =>
    some ⟨.complete (.array (j :: done).reverse), fs⟩
  | .complete j, .comma, .object done k :: fs => some ⟨.member ((k, j) :: done), fs⟩
  | .complete j, .closeObject, .object done k :: fs =>
    some ⟨.complete (.object ((k, j) :: done).reverse), fs⟩
  | _, _, _ => none

/-- The value that was read, if it is complete and no frame is open. -/
def finish? (r : Reader) : Option Json :=
  match r.mode, r.frames with
  | .complete j, [] => some j
  | _, _ => none

end Reader

/-- The value that the tokens write. -/
def ofTokens? (ts : List Token) : Option Json := (ts.foldlM Reader.step? {}).bind Reader.finish?

/-- The value that the text writes. -/
def parse? (s : String) : Option Json := (scan? (s.toList.map some)).bind ofTokens?

/-- The value that the bytes write. -/
def parseBytes? (bytes : ByteArray) : Option Json := (scan? (Text.characters bytes)).bind ofTokens?

end Triage.Json
