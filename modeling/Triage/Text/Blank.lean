/-!
# Blank characters

The characters that count as white space, and texts without them at either end.  The file
separators (`\x1c` to `\x1f`) and the zero-width space are not blank.
-/

namespace Triage.Text

/-- The codes of the white-space characters, in increasing order. -/
def blankCodes : List Nat := [
  0x9, 0xA, 0xB, 0xC, 0xD, 0x20, 0x85, 0xA0, 0x1680, 0x2000, 0x2001, 0x2002, 0x2003, 0x2004,
  0x2005, 0x2006, 0x2007, 0x2008, 0x2009, 0x200A, 0x2028, 0x2029, 0x202F, 0x205F, 0x3000]

/-- Whether `c` is a white-space character. -/
def isBlank (c : Char) : Bool := blankCodes.contains c.toNat

/-- Whether `s` holds nothing but white space. -/
def allBlank (s : String) : Bool := s.toList.all isBlank

/-- Whether `s` holds any white space. -/
def hasBlank (s : String) : Bool := s.toList.any isBlank

/-- `s` without the white space at its two ends. -/
def trim (s : String) : String :=
  String.ofList ((s.toList.dropWhile isBlank).reverse.dropWhile isBlank).reverse

theorem allBlank_empty : allBlank "" = true := rfl

end Triage.Text
