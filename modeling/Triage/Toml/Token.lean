import Triage.Text.Hex

/-!
# Tokens of configuration documents

The scanner reads one character at a time.  Strings are decoded and checked as they are read,
comments are checked and dropped, and everything else is split at marks and blanks.
-/

namespace Triage.Toml

/-- A token.  A blank is a space or a tab.  A string knows whether it may span lines and thus cannot
be a key. -/
inductive Token
  | dot
  | equals
  | comma
  | openSquare
  | closeSquare
  | openCurly
  | closeCurly
  | blank (c : Char)
  | newline
  | string (s : String) (block : Bool)
  | word (cs : List Char)
deriving DecidableEq

/-- The kind of a string: whether it spans lines, and whether it is literal. -/
structure StringKind where
  block : Bool
  literal : Bool
deriving DecidableEq

/-- The character that encloses strings of the kind. -/
def StringKind.quote (k : StringKind) : Char := if k.literal then '\'' else '"'

/-- Where the scanner stands.  Characters read so far are kept in reverse. -/
inductive ScanMode
  | between
  | word (done : List Char)
  | comment
  | carriage
  | quotes (literal : Bool) (two : Bool)
  | opened (k : StringKind)
  | openedCarriage (k : StringKind)
  | inside (k : StringKind) (done : List Char) (quotes : Nat)
  | insideCarriage (k : StringKind) (done : List Char)
  | escape (k : StringKind) (done : List Char)
  | code (k : StringKind) (done : List Char) (left value : Nat)
  | continuation (k : StringKind) (done : List Char) (newline carriage : Bool)

/-- The scanner: its place, and the tokens so far in reverse. -/
structure Scanner where
  mode : ScanMode := .between
  tokens : List Token := []

/-- Whether `c` is a control character that may not stand in strings and comments. -/
def isControl (c : Char) : Bool := c.toNat < 0x20 && c ≠ '\t' || c.toNat = 0x7F

/-- The token of a single character. -/
def mark? : Char → Option Token
  | '.' => some .dot
  | '=' => some .equals
  | ',' => some .comma
  | '[' => some .openSquare
  | ']' => some .closeSquare
  | '{' => some .openCurly
  | '}' => some .closeCurly
  | ' ' => some (.blank ' ')
  | '\t' => some (.blank '\t')
  | '\n' => some .newline
  | _ => none

/-- The character that an escape names, where one letter does. -/
def escaped? : Char → Option Char
  | 'b' => some '\x08'
  | 't' => some '\t'
  | 'n' => some '\n'
  | 'f' => some '\x0c'
  | 'r' => some '\r'
  | 'e' => some '\x1b'
  | '"' => some '"'
  | '\\' => some '\\'
  | _ => none

/-- The number of digits behind an escape that names a character by its code. -/
def codeLength? : Char → Option Nat
  | 'x' => some 2
  | 'u' => some 4
  | 'U' => some 8
  | _ => none

/-- The character of a code. -/
def charOfCode? (n : Nat) : Option Char := if n.isValidChar then some (Char.ofNat n) else none

namespace Scanner

/-- The scanner between tokens reads `c`. -/
def start (tokens : List Token) (c : Char) : Scanner :=
  match mark? c with
  | some t => ⟨.between, t :: tokens⟩
  | none =>
    if c = '#' then ⟨.comment, tokens⟩
    else if c = '\r' then ⟨.carriage, tokens⟩
    else if c = '"' then ⟨.quotes false false, tokens⟩
    else if c = '\'' then ⟨.quotes true false, tokens⟩
    else ⟨.word [c], tokens⟩

/-- Whether `c` ends a word.  Quotes do not: they only start a string between tokens. -/
def endsWord (c : Char) : Bool := (mark? c).isSome || c = '#' || c = '\r'

/-- The tokens with a string. -/
def push (tokens : List Token) (k : StringKind) (done : List Char) : List Token :=
  .string (String.ofList done.reverse) k.block :: tokens

/-- The characters with some quotes that belong to them. -/
def withQuotes (k : StringKind) (done : List Char) (n : Nat) : List Char :=
  List.replicate n k.quote ++ done

/-- The scanner inside a string reads a character that is not its quote. -/
def content? (tokens : List Token) (k : StringKind) (done : List Char) (c : Char) :
    Option Scanner :=
  if c = '\\' ∧ !k.literal then some ⟨.escape k done, tokens⟩
  else if c = '\n' ∧ k.block then some ⟨.inside k (c :: done) 0, tokens⟩
  else if c = '\r' ∧ k.block then some ⟨.insideCarriage k done, tokens⟩
  else if isControl c then none
  else some ⟨.inside k (c :: done) 0, tokens⟩

/-- The scanner inside a string reads `c`, after `quotes` quotes in a row. -/
def inside? (tokens : List Token) (k : StringKind) (done : List Char) (quotes : Nat) (c : Char) :
    Option Scanner :=
  if c = k.quote then
    if !k.block then some ⟨.between, push tokens k done⟩
    else if quotes = 4 then some ⟨.between, push tokens k (withQuotes k done 2)⟩
    else some ⟨.inside k done (quotes + 1), tokens⟩
  else if 3 ≤ quotes then some (start (push tokens k (withQuotes k done (quotes - 3))) c)
  else content? tokens k (withQuotes k done quotes) c

/-- The scanner reads what follows the quotes that open a string. -/
def opened? (tokens : List Token) (k : StringKind) (c : Char) : Option Scanner :=
  if c = '\n' then some ⟨.inside k [] 0, tokens⟩
  else if c = '\r' then some ⟨.openedCarriage k, tokens⟩
  else inside? tokens k [] 0 c

/-- The scanner reads the character behind a backslash. -/
def escape? (tokens : List Token) (k : StringKind) (done : List Char) (c : Char) :
    Option Scanner :=
  match escaped? c, codeLength? c with
  | some e, _ => some ⟨.inside k (e :: done) 0, tokens⟩
  | none, some n => some ⟨.code k done n 0, tokens⟩
  | none, none =>
    if !k.block then none
    else if c = ' ' ∨ c = '\t' then some ⟨.continuation k done false false, tokens⟩
    else if c = '\n' then some ⟨.continuation k done true false, tokens⟩
    else if c = '\r' then some ⟨.continuation k done false true, tokens⟩
    else none

/-- The scanner reads `c` between a backslash at the end of a line and what follows it. -/
def continue? (tokens : List Token) (k : StringKind) (done : List Char) (newline : Bool)
    (c : Char) : Option Scanner :=
  if c = ' ' ∨ c = '\t' then some ⟨.continuation k done newline false, tokens⟩
  else if c = '\n' then some ⟨.continuation k done true false, tokens⟩
  else if c = '\r' then some ⟨.continuation k done newline true, tokens⟩
  else if newline then inside? tokens k done 0 c
  else none

/-- The scanner reads `c`. -/
def step? (s : Scanner) (c : Char) : Option Scanner :=
  match s.mode with
  | .between => some (start s.tokens c)
  | .word done =>
    if endsWord c then some (start (.word done.reverse :: s.tokens) c)
    else some ⟨.word (c :: done), s.tokens⟩
  | .comment =>
    if c = '\n' then some ⟨.between, .newline :: s.tokens⟩
    else if c = '\r' then some ⟨.carriage, s.tokens⟩
    else if isControl c then none
    else some s
  | .carriage => if c = '\n' then some ⟨.between, .newline :: s.tokens⟩ else none
  | .quotes literal two =>
    let quote := (StringKind.mk false literal).quote
    if c = quote then
      if two then some ⟨.opened ⟨true, literal⟩, s.tokens⟩
      else some ⟨.quotes literal true, s.tokens⟩
    else if two then some (start (push s.tokens ⟨false, literal⟩ []) c)
    else inside? s.tokens ⟨false, literal⟩ [] 0 c
  | .opened k => opened? s.tokens k c
  | .openedCarriage k => if c = '\n' then some ⟨.inside k [] 0, s.tokens⟩ else none
  | .inside k done quotes => inside? s.tokens k done quotes c
  | .insideCarriage k done =>
    if c = '\n' then some ⟨.inside k ('\n' :: '\r' :: done) 0, s.tokens⟩ else none
  | .escape k done => escape? s.tokens k done c
  | .code k done left value => do
    let value := value * 16 + (← Text.hexValue? c)
    if left ≤ 1 then return ⟨.inside k ((← charOfCode? value) :: done) 0, s.tokens⟩
    else return ⟨.code k done (left - 1) value, s.tokens⟩
  | .continuation k done newline carriage =>
    if carriage then
      if c = '\n' then some ⟨.continuation k done true false, s.tokens⟩ else none
    else continue? s.tokens k done newline c

/-- The tokens with the one that ends with the text, in reverse. -/
def close? (s : Scanner) : Option (List Token) :=
  match s.mode with
  | .between => some s.tokens
  | .comment => some s.tokens
  | .word done => some (.word done.reverse :: s.tokens)
  | .quotes literal true => some (push s.tokens ⟨false, literal⟩ [])
  | .inside k done quotes =>
    if 3 ≤ quotes then some (push s.tokens k (withQuotes k done (quotes - 3))) else none
  | _ => none

end Scanner

/-- The tokens of a text, which may start with a byte order mark. -/
def scan? (cs : List Char) : Option (List Token) :=
  let cs := if cs.head? = some '\ufeff' then cs.tail else cs
  ((cs.foldlM Scanner.step? {}).bind Scanner.close?).map List.reverse

end Triage.Toml
