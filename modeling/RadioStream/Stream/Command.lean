import RadioStream.Time.Instant
/-!
# Stream commands

A stream command tells a receive path when to start, how many samples to
produce, and whether another command follows. Its mode travels as one letter.
-/

namespace RadioStream

/-- What a stream command asks for. -/
inductive StreamMode where
  /-- Stream until a stop. -/
  | startContinuous
  /-- Stop streaming. -/
  | stopContinuous
  /-- Stream a number of samples and end the burst. -/
  | samplesAndDone
  /-- Stream a number of samples, which another command continues. -/
  | samplesAndMore
deriving DecidableEq, Repr, Inhabited

namespace StreamMode

/-- The letter of a mode. -/
def letter : StreamMode → Char
  | startContinuous => 'a'
  | stopContinuous => 'o'
  | samplesAndDone => 'd'
  | samplesAndMore => 'm'

/-- The letter as it travels. -/
def wire (m : StreamMode) : UInt8 := m.letter.toUInt8

/-- The mode of a letter. -/
def ofWire? (b : UInt8) : Option StreamMode :=
  if b = startContinuous.wire then some startContinuous
  else if b = stopContinuous.wire then some stopContinuous
  else if b = samplesAndDone.wire then some samplesAndDone
  else if b = samplesAndMore.wire then some samplesAndMore
  else none

/-- Whether the mode streams a given number of samples. -/
def isFixedCount : StreamMode → Bool
  | samplesAndDone | samplesAndMore => true
  | startContinuous | stopContinuous => false

theorem ofWire?_wire (m : StreamMode) : ofWire? m.wire = some m := by
  cases m <;> rfl

end StreamMode

/-- A stream command. -/
structure StreamCommand (α : Type := Float) where
  mode : StreamMode
  /-- How many samples the modes with a fixed count stream. -/
  samples : UInt64
  /-- Start at once, whatever the time says. -/
  immediate : Bool
  /-- When to start otherwise. -/
  time : Instant α

namespace StreamCommand

variable {α : Type} [Scalar α]

/-- A command to be carried out at once. -/
def now (mode : StreamMode) (samples : UInt64) : StreamCommand α :=
  { mode, samples := if mode.isFixedCount then samples else 0, immediate := true
    time := Instant.zero }

/-- The command put off until an instant. -/
def at_ (c : StreamCommand α) (time : Instant α) : StreamCommand α :=
  { c with immediate := false, time }

/-- Whether the command starts or continues streaming. -/
def isStart (c : StreamCommand α) : Bool := c.mode != .stopContinuous

end StreamCommand

end RadioStream
