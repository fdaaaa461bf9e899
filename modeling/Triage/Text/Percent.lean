import Triage.Text.Hex

/-!
# Percent-encoded text

A percent sign before two hexadecimal digits stands for one byte; all other characters stand for
themselves.  An encoded zero ends the text.
-/

namespace Triage.Text

/-- The bytes that the characters stand for. -/
def percentBytes : List Char → List UInt8
  | [] => []
  | '%' :: a :: b :: cs =>
    match hexNumber? [a, b] with
    | some 0 => []
    | some n => UInt8.ofNat n :: percentBytes cs
    | none => '%'.toUInt8 :: percentBytes (a :: b :: cs)
  | c :: cs => String.utf8EncodeChar c ++ percentBytes cs

/-- The character that shows a byte of a text that is not proper: itself if it is plain, else one
for private use. -/
def charOfByte (b : UInt8) : Char :=
  if b < 0x80 then Char.ofNat b.toNat else Char.ofNat (0xF700 + b.toNat)

/-- The text that the characters stand for. -/
def percentDecode (cs : List Char) : String :=
  let bs := percentBytes cs
  (String.fromUTF8? ⟨bs.toArray⟩).getD (String.ofList (bs.map charOfByte))

end Triage.Text
