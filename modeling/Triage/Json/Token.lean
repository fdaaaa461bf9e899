import Triage.Json.Basic
import Triage.Text.Hex
import Triage.Text.Units

/-!
# JSON tokens

The smallest pieces of the data format, how each is written, and splitting a text into them.  The
scanner reads one character at a time; white space separates tokens and is dropped.  A byte that
belongs to no character may stand inside a string, which then has no text.
-/

namespace Triage.Json

/-- A token. -/
inductive Token
  | openArray
  | closeArray
  | openObject
  | closeObject
  | comma
  | colon
  | null
  | bool (b : Bool)
  | number (n : JsonNumber)
  | string (s : JsonText)
deriving DecidableEq

/-! ## Writing -/

/-- The characters that stand for `c` inside a string. -/
def escapeChar (c : Char) : List Char :=
  if c = '"' then ['\\', '"']
  else if c = '\\' then ['\\', '\\']
  else if c = '\x08' then ['\\', 'b']
  else if c = '\x0c' then ['\\', 'f']
  else if c = '\n' then ['\\', 'n']
  else if c = '\r' then ['\\', 'r']
  else if c = '\t' then ['\\', 't']
  else if c.toNat < 0x20 then '\\' :: 'u' :: Text.hexDigits 4 c.toNat
  else [c]

/-- The characters of a string, its quotes included. -/
def quoted (s : String) : List Char := '"' :: s.toList.flatMap escapeChar ++ ['"']

/-- The characters of a token.  A string without a text has no written form and is left empty. -/
def Token.chars : Token → List Char
  | .openArray => ['[']
  | .closeArray => [']']
  | .openObject => ['{']
  | .closeObject => ['}']
  | .comma => [',']
  | .colon => [':']
  | .null => ['n', 'u', 'l', 'l']
  | .bool true => ['t', 'r', 'u', 'e']
  | .bool false => ['f', 'a', 'l', 's', 'e']
  | .number n => n.chars
  | .string s => quoted (s.getD "")

/-! ## Scanning -/

/-- The character that an escape other than `\u` names. -/
def unescape? : Char → Option Char
  | '"' => some '"'
  | '\\' => some '\\'
  | '/' => some '/'
  | 'b' => some '\x08'
  | 'f' => some '\x0c'
  | 'n' => some '\n'
  | 'r' => some '\r'
  | 't' => some '\t'
  | _ => none

/-- Where the scanner stands: between tokens, or inside a word, a number, a string or an escape,
with what it has read of it. -/
inductive ScanMode
  | between
  | word (done : List Char)
  | number (done : List Char)
  | string (s : Text.Units)
  | escape (s : Text.Units)
  | unit (s : Text.Units) (digits value : Nat)

/-- The scanner: its place, and the tokens so far in reverse. -/
structure Scanner where
  mode : ScanMode := .between
  tokens : List Token := []

/-- Whether `c` separates tokens. -/
def isSpace (c : Char) : Bool := c = ' ' || c = '\n' || c = '\t' || c = '\r'

/-- Whether `c` occurs in numbers. -/
def isNumberChar (c : Char) : Bool :=
  c.isDigit || c = '-' || c = '+' || c = '.' || c = 'e' || c = 'E'

/-- The token that a word is. -/
def wordToken? (word : List Char) : Option Token :=
  if word = ['n', 'u', 'l', 'l'] then some .null
  else if word = ['t', 'r', 'u', 'e'] then some (.bool true)
  else if word = ['f', 'a', 'l', 's', 'e'] then some (.bool false)
  else none

/-- A token of one character. -/
def markToken? : Char → Option Token
  | '[' => some .openArray
  | ']' => some .closeArray
  | '{' => some .openObject
  | '}' => some .closeObject
  | ',' => some .comma
  | ':' => some .colon
  | _ => none

namespace Scanner

/-- The scanner between tokens reads `c`. -/
def start? (tokens : List Token) (c : Char) : Option Scanner :=
  if isSpace c then some ⟨.between, tokens⟩
  else match markToken? c with
    | some t => some ⟨.between, t :: tokens⟩
    | none =>
      if c = '"' then some ⟨.string {}, tokens⟩
      else if c.isDigit || c = '-' then some ⟨.number [c], tokens⟩
      else if c.isLower then some ⟨.word [c], tokens⟩
      else none

/-- The tokens with the word or number that ends here; none inside a string. -/
def close? (s : Scanner) : Option (List Token) :=
  match s.mode with
  | .between => some s.tokens
  | .word done => (wordToken? done.reverse).map (· :: s.tokens)
  | .number done => (JsonNumber.ofChars? done.reverse).map fun n => .number n :: s.tokens
  | _ => none

/-- The scanner reads `c`. -/
def step? (s : Scanner) (c : Char) : Option Scanner :=
  match s.mode with
  | .between => start? s.tokens c
  | .word done =>
    if c.isLower then some ⟨.word (c :: done), s.tokens⟩ else s.close?.bind (start? · c)
  | .number done =>
    if isNumberChar c then some ⟨.number (c :: done), s.tokens⟩ else s.close?.bind (start? · c)
  | .string u =>
    if c = '"' then some ⟨.between, .string u.finish? :: s.tokens⟩
    else if c = '\\' then some ⟨.escape u, s.tokens⟩
    else if c.toNat < 0x20 then none
    else some ⟨.string (u.char c), s.tokens⟩
  | .escape u =>
    if c = 'u' then some ⟨.unit u 0 0, s.tokens⟩
    else (unescape? c).map fun e => ⟨.string (u.char e), s.tokens⟩
  | .unit u digits value =>
    (Text.hexValue? c).map fun d =>
      if digits = 3 then ⟨.string (u.unit (value * 16 + d)), s.tokens⟩
      else ⟨.unit u (digits + 1) (value * 16 + d), s.tokens⟩

/-- The scanner reads a byte that belongs to no character. -/
def stray? (s : Scanner) : Option Scanner :=
  match s.mode with
  | .string u => some ⟨.string u.stray, s.tokens⟩
  | _ => none

/-- The scanner reads a character, or a byte that belongs to none. -/
def read? (s : Scanner) : Option Char → Option Scanner
  | some c => s.step? c
  | none => s.stray?

end Scanner

/-- The tokens of a row of characters and bytes that belong to none. -/
def scan? (cs : List (Option Char)) : Option (List Token) :=
  ((cs.foldlM Scanner.read? {}).bind Scanner.close?).map List.reverse

end Triage.Json
