import RadioStream.Decimal.Fixed
import RadioStream.Time.Scalar
/-!
# Device time

An instant is a whole number of seconds and a fraction of a second. Keeping the
two apart keeps the fraction precise however large the seconds are. A device
counts time in ticks; `Instant.ofTicks` and `Instant.toTicks` convert at a given
rate.
-/

namespace RadioStream

/-- Whole seconds and a fraction of one. The fraction of what `ofParts` makes is
not below zero and is below one, but where doubles round it up to one. -/
structure Instant (α : Type := Float) where
  seconds : Int
  fraction : α

namespace Instant

variable {α : Type} [Scalar α]

/-- An instant of given seconds and fraction; whole seconds in the fraction are
carried over. -/
def ofParts (seconds : Int) (fraction : α) : Instant α :=
  let carry := Scalar.floor fraction
  ⟨seconds + Scalar.toInt carry, fraction - carry⟩

/-- The start of time. -/
def zero : Instant α := ⟨0, Scalar.ofInt 0⟩

/-- An instant in real seconds. -/
def ofSeconds (seconds : α) : Instant α := ofParts 0 seconds

/-- The instant of a tick, at `rate` ticks a second. -/
def ofTicks (ticks : Int) (rate : α) : Instant α :=
  let count : α := Scalar.ofInt ticks
  let whole := Scalar.toInt (Scalar.floor (count / rate))
  let rest := count - Scalar.ofInt whole * rate
  ofParts whole (rest / rate)

/-- The tick nearest to an instant, at `rate` ticks a second. Each of the two parts has
sixty-four bits, but not their sum, which may be past the last tick of a signed counter. -/
def toTicks (t : Instant α) (rate : α) : Int :=
  Scalar.toInt (Scalar.round (Scalar.ofInt t.seconds * rate)) +
    Scalar.toInt (Scalar.round (t.fraction * rate))

/-- The tick that a start at an instant is counted from; there is no tick before
zero. -/
def startTick (t : Instant α) (rate : α) : UInt64 := UInt64.ofNat (t.toTicks rate).toNat

/-- The instant of a tick counter of sixty-four bits, read with a sign. -/
def ofCounter (ticks : UInt64) (rate : α) : Instant α := ofTicks ticks.toInt64.toInt rate

/-- Real seconds, less precise when the seconds are many. -/
def toSeconds (t : Instant α) : α := Scalar.ofInt t.seconds + t.fraction

/-- The sum of two times. -/
def add (t u : Instant α) : Instant α :=
  ofParts (t.seconds + u.seconds) (t.fraction + u.fraction)

/-- The time from one instant to another. -/
def sub (t u : Instant α) : Instant α :=
  ofParts (t.seconds - u.seconds) (t.fraction - u.fraction)

instance : Inhabited (Instant α) := ⟨zero⟩
instance : Add (Instant α) := ⟨add⟩
instance : Sub (Instant α) := ⟨sub⟩

end Instant

namespace Instant

/-- Which of two instants is earlier: the seconds decide, then the fractions.
Fractions that are not numbers have no order. -/
def compare (t u : Instant) : Option Ordering :=
  if t.seconds < u.seconds then some .lt
  else if u.seconds < t.seconds then some .gt
  else if t.fraction < u.fraction then some .lt
  else if u.fraction < t.fraction then some .gt
  else if t.fraction == u.fraction then some .eq
  else none

instance : BEq Instant := ⟨fun t u => t.seconds == u.seconds && t.fraction == u.fraction⟩

/-- Real seconds with nine places and their unit. -/
def text (t : Instant) : String := Decimal.ninePlaces t.toSeconds ++ "s"

end Instant

end RadioStream
