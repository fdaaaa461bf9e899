import Triage.Text.Case

/-!
# Lower case of a text

Character by character, with the two cases that need more than one character: a capital I with a
dot becomes two characters, and a capital sigma becomes the final form at the end of a word.
-/

namespace Triage.Text

/-- Whether the first character that is not passed over has a case. -/
def startsCased : List Char → Bool
  | [] => false
  | c :: cs => if isCaseIgnorable c then startsCased cs else isCased c

/-- The small form of `c`, standing after a letter (`after`) and before the text `rest`. -/
def lowercaseAt (after : Bool) (c : Char) (rest : List Char) : List Char :=
  if c = 'Σ' then [if after && !startsCased rest then 'ς' else 'σ']
  else if c = 'İ' then ['i', '\u0307']
  else [(lowercase? c).getD c]

/-- Lower case of `cs` appended to the reversed text `done`; `after` tells whether the last
character that is not passed over had a case. -/
def lowercaseLoop (after : Bool) (done : List Char) : List Char → List Char
  | [] => done.reverse
  | c :: cs =>
    lowercaseLoop (if isCaseIgnorable c then after else isCased c)
      ((lowercaseAt after c cs).reverse ++ done) cs

/-- The text in lower case. -/
def lowercase (s : String) : String := String.ofList (lowercaseLoop false [] s.toList)

end Triage.Text
