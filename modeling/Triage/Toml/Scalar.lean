import Triage.Toml.Document

/-!
# Bare values

Words, joined by dots and blanks, that stand for values: truth values, numbers, dates and times.  A
date or a time must be one of the calendar and the clock; a number must have the form of one.
-/

namespace Triage.Toml

/-! ## Dates and times -/

/-- The number that two digits are. -/
def twoDigits? (a b : Char) : Option Nat :=
  if a.isDigit && b.isDigit then some (Numeral.digitsValue [a, b]) else none

/-- The number of days of a month. -/
def daysIn (year month : Nat) : Nat :=
  if month = 2 then
    if year % 4 = 0 ∧ (year % 100 ≠ 0 ∨ year % 400 = 0) then 29 else 28
  else if [4, 6, 9, 11].contains month then 30
  else 31

/-- Whether the characters are a date of the calendar. -/
def isDate : List Char → Bool
  | [a, b, c, d, '-', e, f, '-', g, h] =>
    [a, b, c, d, e, f, g, h].all Char.isDigit &&
      let year := Numeral.digitsValue [a, b, c, d]
      let month := Numeral.digitsValue [e, f]
      let day := Numeral.digitsValue [g, h]
      1 ≤ month && month ≤ 12 && 1 ≤ day && day ≤ daysIn year month
  | _ => false

/-- Whether the characters are an hour and a minute. -/
def isHourMinute : List Char → Bool
  | [a, b, ':', c, d] =>
    (twoDigits? a b).any (· ≤ 23) && (twoDigits? c d).any (· ≤ 59)
  | _ => false

/-- Whether the characters are the seconds of a time: absent, or whole, or with a fraction. -/
def isSeconds : List Char → Bool
  | [] => true
  | ':' :: a :: b :: rest =>
    (twoDigits? a b).any (· ≤ 60) &&
      match rest with
      | [] => true
      | '.' :: ds => !ds.isEmpty && ds.all Char.isDigit
      | _ => false
  | _ => false

/-- Whether the characters are a time of day. -/
def isTime (cs : List Char) : Bool := isHourMinute (cs.take 5) && isSeconds (cs.drop 5)

/-- Whether the characters are an offset from universal time. -/
def isOffset : List Char → Bool
  | ['Z'] => true
  | ['z'] => true
  | '+' :: cs => isHourMinute cs
  | '-' :: cs => isHourMinute cs
  | _ => false

/-- Whether the characters are a time of day, or one with an offset. -/
def isTimeWithOffset (cs : List Char) : Bool :=
  let (time, offset) := cs.span fun c => c.isDigit || c = ':' || c = '.'
  isTime time && (offset.isEmpty || isOffset offset)

/-- Whether the word is a date, a time, or both. -/
def isMoment (cs : List Char) : Bool :=
  isDate cs || isTime cs ||
    isDate (cs.take 10) && (cs.drop 10).head?.any (fun c => c = 'T' || c = 't' || c = ' ') &&
      isTimeWithOffset (cs.drop 11)

/-! ## Words -/

/-- The value that a word is. -/
def ofWord? (cs : List Char) : Option Toml :=
  if cs = ['t', 'r', 'u', 'e'] then some (.boolean true)
  else if cs = ['f', 'a', 'l', 's', 'e'] then some (.boolean false)
  else if isMoment cs then some .moment
  else (Number.ofWord? cs).map .number

end Triage.Toml
