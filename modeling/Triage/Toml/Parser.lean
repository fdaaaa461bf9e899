import Triage.Toml.Scalar
import Triage.Toml.Token

/-!
# Reading configuration documents

The reader takes one token at a time.  Arrays and tables in line that are still open, and the keys
whose values are being read, are kept as a list of frames.
-/

namespace Triage.Toml

/-- Something unfinished: an array, a table in line, or a key that waits for its value.  Items and
names so far are kept in reverse. -/
inductive Frame
  | array (done : List Toml)
  | inline (entries : Entries)
  | member (names : List String)

/-- What the reader takes next: a line; the second bracket of a header or its first name; a name of
a header; what follows such a name; the second bracket at the end; the end of a line; a name of a
key; what follows such a name; a value; more of a bare value; an item or the end of an array; what
follows an item; a member or the end of a table in line; what follows a member.  A bare value is
kept in reverse, and so are the blanks behind it, which belong to it only if more of it follows. -/
inductive ReadMode
  | line
  | header
  | headerName (shared : Bool) (names : List String)
  | headerNext (shared : Bool) (names : List String)
  | headerEnd (names : List String)
  | lineEnd
  | keyName (names : List String)
  | keyNext (names : List String)
  | keyEnd (names : List String)
  | value
  | word (done blanks : List Char)
  | item
  | itemEnd
  | member
  | memberEnd

/-- The reader: what it takes next, the open frames, the innermost first, and the document. -/
structure Reader where
  mode : ReadMode := .line
  frames : List Frame := []
  document : Document := {}

/-- How deep arrays and tables in line may be nested, and how many names a key may have. -/
def maxDepth : Nat := 80

/-- Whether a character may stand in a bare name. -/
def isNameChar (c : Char) : Bool := c.isAlphanum || c = '_' || c = '-'

/-- The name that a token is. -/
def name? : Token → Option String
  | .word cs => if cs.all isNameChar then some (String.ofList cs) else none
  | .string s false => some s
  | _ => none

namespace Reader

/-- The number of open arrays and tables. -/
def depth (r : Reader) : Nat :=
  r.frames.countP fun
    | .member _ => false
    | _ => true

/-- The reader with another frame open. -/
def enter? (r : Reader) (f : Frame) (mode : ReadMode) : Option Reader :=
  if r.depth < maxDepth then some { r with mode := mode, frames := f :: r.frames } else none

/-- The reader with a value complete. -/
def complete? (r : Reader) (v : Toml) : Option Reader :=
  match r.frames with
  | .array done :: fs => some { r with mode := .itemEnd, frames := .array (v :: done) :: fs }
  | [.member names] => do
    let d ← r.document.insert? names.reverse v
    return ⟨.lineEnd, [], d⟩
  | .member names :: .inline es :: fs => do
    let es ← es.insert? names.reverse v
    return { r with mode := .memberEnd, frames := .inline es :: fs }
  | _ => none

/-- The reader at the end of an array. -/
def closeArray? (r : Reader) : Option Reader :=
  match r.frames with
  | .array done :: fs => { r with frames := fs }.complete? (.array done.reverse)
  | _ => none

/-- The reader at the end of a table in line. -/
def closeInline? (r : Reader) : Option Reader :=
  match r.frames with
  | .inline es :: fs => { r with frames := fs }.complete? (.table .inline es)
  | _ => none

/-- The reader takes the first token of a value. -/
def startValue? (r : Reader) : Token → Option Reader
  | .string s _ => r.complete? (.string s)
  | .word cs => some { r with mode := .word cs.reverse [] }
  | .openSquare => r.enter? (.array []) .item
  | .openCurly => r.enter? (.inline []) .member
  | _ => none

/-- The reader takes a name behind those of the same key. -/
def takeName? (r : Reader) (t : Token) (names : List String) (mode : List String → ReadMode) :
    Option Reader :=
  if names.length < maxDepth then (name? t).map fun n => { r with mode := mode (n :: names) }
  else none

/-- Whether the key or the value that the reader takes is in a table in line, where lines may end
around the equals sign. -/
def isInline (r : Reader) : Bool :=
  match r.frames with
  | .inline _ :: _ => true
  | .member _ :: .inline _ :: _ => true
  | _ => false

/-- The reader behind the equals sign of a key. -/
def startMember (r : Reader) (names : List String) : Reader :=
  { r with mode := .value, frames := .member names :: r.frames }

/-- The reader, not in a bare value, takes a token. -/
def take? (r : Reader) (t : Token) : Option Reader :=
  match r.mode, t with
  | .header, .openSquare => some { r with mode := .headerName true [] }
  | .header, .blank _ => some { r with mode := .headerName false [] }
  | .header, t => r.takeName? t [] (.headerNext false)
  | .headerEnd names, .closeSquare => do
    let d ← r.document.start? true names.reverse
    return ⟨.lineEnd, [], d⟩
  | .headerEnd _, _ => none
  | _, .blank _ => some r
  | .line, .newline => some r
  | .line, .openSquare => some { r with mode := .header }
  | .line, t => r.takeName? t [] .keyNext
  | .headerName shared names, t => r.takeName? t names (.headerNext shared)
  | .headerNext shared names, .dot => some { r with mode := .headerName shared names }
  | .headerNext true names, .closeSquare => some { r with mode := .headerEnd names }
  | .headerNext false names, .closeSquare => do
    let d ← r.document.start? false names.reverse
    return ⟨.lineEnd, [], d⟩
  | .lineEnd, .newline => some { r with mode := .line }
  | .keyName names, t => r.takeName? t names .keyNext
  | .keyNext names, .dot => some { r with mode := .keyName names }
  | .keyNext names, .equals => some (r.startMember names)
  | .keyNext names, .newline => if r.isInline then some { r with mode := .keyEnd names } else none
  | .keyEnd names, .equals => some (r.startMember names)
  | .keyEnd _, .newline => some r
  | .value, .newline => if r.isInline then some r else none
  | .value, t => r.startValue? t
  | .item, .newline => some r
  | .item, .closeSquare => r.closeArray?
  | .item, t => r.startValue? t
  | .itemEnd, .newline => some r
  | .itemEnd, .comma => some { r with mode := .item }
  | .itemEnd, .closeSquare => r.closeArray?
  | .member, .newline => some r
  | .member, .closeCurly => r.closeInline?
  | .member, t => r.takeName? t [] .keyNext
  | .memberEnd, .newline => some r
  | .memberEnd, .comma => some { r with mode := .member }
  | .memberEnd, .closeCurly => r.closeInline?
  | _, _ => none

/-- The reader at the end of a bare value. -/
def endWord? (r : Reader) (done : List Char) : Option Reader :=
  (ofWord? done.reverse).bind r.complete?

/-- The reader takes a token. -/
def step? (r : Reader) (t : Token) : Option Reader :=
  match r.mode, t with
  | .word done blanks, .blank c => some { r with mode := .word done (c :: blanks) }
  | .word done blanks, .word cs => some { r with mode := .word (cs.reverse ++ blanks ++ done) [] }
  | .word done blanks, .dot => some { r with mode := .word ('.' :: blanks ++ done) [] }
  | .word done _, t => (r.endWord? done).bind (take? · t)
  | _, t => r.take? t

/-- The document, if it is complete. -/
def finish? (r : Reader) : Option Entries :=
  match r.mode, r.frames with
  | .line, [] => some r.document.root
  | _, _ => none

end Reader

/-- The entries of the document that the tokens write. -/
def ofTokens? (ts : List Token) : Option Entries :=
  ((ts ++ [Token.newline]).foldlM Reader.step? {}).bind Reader.finish?

/-- The entries of the document that the text writes. -/
def parse? (s : String) : Option Entries := (scan? s.toList).bind ofTokens?

end Triage.Toml
