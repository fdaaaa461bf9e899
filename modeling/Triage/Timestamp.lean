/-!
# Timestamps

Milliseconds since the epoch in a signed 64-bit word, and the stamp that follows another.
-/

namespace Triage

/-- A point in time, in milliseconds since the epoch. -/
structure Timestamp where
  millis : Int64
deriving DecidableEq, Repr

namespace Timestamp

instance : LT Timestamp := ⟨fun a b => a.millis < b.millis⟩

instance (a b : Timestamp) : Decidable (a < b) := inferInstanceAs (Decidable (a.millis < b.millis))

instance : Inhabited Timestamp := ⟨⟨0⟩⟩

/-- The stamp one millisecond later; the last stamp of all stays. -/
def succ (t : Timestamp) : Timestamp := if t.millis = Int64.maxValue then t else ⟨t.millis + 1⟩

/-- The stamp of a write at `now` to a row last stamped `t`: the clock's, unless that would not be
later than `t`. -/
def nextAfter (t now : Timestamp) : Timestamp := if t < now then now else t.succ

/-- The stamp `ms` milliseconds further on, wrapping at the ends of the range. -/
def advance (t : Timestamp) (ms : Int64) : Timestamp := ⟨t.millis + ms⟩

/-- The number of milliseconds in decimal. -/
def text (t : Timestamp) : String := toString t.millis.toInt

end Timestamp

end Triage
