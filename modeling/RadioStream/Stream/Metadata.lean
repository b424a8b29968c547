import RadioStream.Time.Instant
/-!
# Metadata

What travels beside the samples: the condition a receive call reports, the time,
the bursts and the fragments of the samples it returns, and what a transmit call
asks for. Each receive call reports exactly one condition.
-/

namespace RadioStream

/-- The condition that a receive call reports. -/
inductive RxCode where
  /-- Samples were delivered. -/
  | none
  /-- No packet came in time. -/
  | timeout
  /-- A timed command came after its time. -/
  | lateCommand
  /-- A command ran out that promised a follow-up. -/
  | brokenChain
  /-- The device had no room, or packets are missing. -/
  | overflow
  /-- The channels could not be brought to one time. -/
  | alignment
  /-- The packet makes no sense. -/
  | badPacket
deriving DecidableEq, Repr, Inhabited

namespace RxCode

/-- The code of a condition on the wire. -/
def wire : RxCode → UInt32
  | none => 0x0
  | timeout => 0x1
  | lateCommand => 0x2
  | brokenChain => 0x4
  | overflow => 0x8
  | alignment => 0xc
  | badPacket => 0xf

/-- Every condition. -/
def all : List RxCode :=
  [none, timeout, lateCommand, brokenChain, overflow, alignment, badPacket]

/-- The condition of a code. -/
def ofWire? (w : UInt32) : Option RxCode := all.find? (·.wire == w)

/-- The name of a condition. -/
def name : RxCode → String
  | none => "ERROR_CODE_NONE"
  | timeout => "ERROR_CODE_TIMEOUT"
  | lateCommand => "ERROR_CODE_LATE_COMMAND"
  | brokenChain => "ERROR_CODE_BROKEN_CHAIN"
  | overflow => "ERROR_CODE_OVERFLOW"
  | alignment => "ERROR_CODE_ALIGNMENT"
  | badPacket => "ERROR_CODE_BAD_PACKET"

theorem ofWire?_wire (c : RxCode) : ofWire? c.wire = some c := by
  cases c <;> rfl

end RxCode

/-! ## End-of-vector positions -/

/-- Positions at which a vector ends, at most `limit` of them. -/
structure EovPositions where
  limit : Nat
  positions : List Nat := []
  bounded : positions.length ≤ limit := by simp

namespace EovPositions

/-- Adds a position if there is room for it. -/
def push? (e : EovPositions) (position : Nat) : Option EovPositions :=
  if h : e.positions.length < e.limit then
    some ⟨e.limit, e.positions ++ [position], by simp only [List.length_append]; exact h⟩
  else none

/-- Adds a position, or leaves it out when there is no room. -/
def push (e : EovPositions) (position : Nat) : EovPositions := (e.push? position).getD e

/-- The same room without positions. -/
def clear (e : EovPositions) : EovPositions := ⟨e.limit, [], Nat.zero_le _⟩

end EovPositions

/-! ## Receive metadata -/

/-- What a receive call says about the samples it returns. -/
structure RxMetadata where
  hasTime : Bool := false
  /-- When the first sample was taken. -/
  time : Instant := Instant.zero
  /-- The packet has samples left for the next call. -/
  moreFragments : Bool := false
  /-- Samples of the packet that earlier calls returned. -/
  fragmentOffset : Nat := 0
  startOfBurst : Bool := false
  endOfBurst : Bool := false
  /-- Room for end-of-vector positions, if the caller gave any. -/
  eov : Option EovPositions := none
  code : RxCode := .none
  /-- Of an overflow: packets are missing. -/
  outOfSequence : Bool := false

namespace RxMetadata

/-- Every field as at the start, with the caller's room for positions. -/
def reset (md : RxMetadata) : RxMetadata := { eov := md.eov.map EovPositions.clear }

/-- Number of end-of-vector positions. -/
def eovCount (md : RxMetadata) : Nat := (md.eov.map (·.positions.length)).getD 0

/-- Whether the device had no room for samples. -/
def isOverflow (md : RxMetadata) : Bool := md.code == .overflow && !md.outOfSequence

/-- Whether packets are missing or out of order. -/
def isSequenceError (md : RxMetadata) : Bool := md.code == .overflow && md.outOfSequence

/-- What the condition means. -/
def explanation (md : RxMetadata) : String :=
  match md.code with
  | .none => "no error"
  | .timeout => "no packet received, implementation timed out"
  | .lateCommand => "a stream command was issued in the past"
  | .brokenChain => "expected another stream command"
  | .overflow =>
    if md.outOfSequence then "a packet was dropped or received out of sequence"
    else "an internal receive buffer has filled"
  | .alignment => "multi-channel alignment failed"
  | .badPacket => "the packet could not be parsed"

/-- The condition and its meaning. -/
def errorText (md : RxMetadata) : String := md.code.name ++ ": " ++ md.explanation

/-- The parts of the printed form, each with whether it says something. -/
def parts (md : RxMetadata) : List (Bool × String) :=
  let validity := if md.hasTime then "valid" else "invalid"
  [(md.hasTime, s!"Time: {md.time.text} ({validity})"),
   (md.moreFragments, s!"More fragments: {md.moreFragments}, Fragment offset: {md.fragmentOffset}"),
   (md.startOfBurst, s!"Start of burst: {md.startOfBurst}"),
   (md.endOfBurst, s!"End of burst: {md.endOfBurst}"),
   (0 < md.eovCount, s!"EOV positions: {md.eovCount}"),
   (md.code != .none, s!"Error code: {md.code.name}"),
   (md.outOfSequence, s!"Out of sequence: {md.outOfSequence}")]

/-- The fields in words; the compact form leaves out those that say nothing. -/
def text (md : RxMetadata) (compact : Bool) : String :=
  String.intercalate ", " ((md.parts.filter fun p => !compact || p.1).map (·.2))

end RxMetadata

/-! ## Transmit metadata and device events -/

/-- What a transmit call asks for. -/
structure TxMetadata where
  hasTime : Bool := false
  /-- When to send the first sample. -/
  time : Instant := Instant.zero
  startOfBurst : Bool := false
  endOfBurst : Bool := false
  /-- Numbers of samples after which a vector ends. -/
  eov : List Nat := []

/-- What a device reports about transmission. -/
inductive EventCode where
  /-- A burst was transmitted. -/
  | burstAck
  /-- There was nothing to send between packets. -/
  | underflow
  /-- Packets are missing. -/
  | seqError
  /-- A timed packet came after its time. -/
  | timeError
  /-- A packet ended inside a sample. -/
  | underflowInPacket
  /-- Packets of a burst are missing. -/
  | seqErrorInBurst
  /-- Words that the device passes on. -/
  | userPayload
deriving DecidableEq, Repr, Inhabited

namespace EventCode

/-- The code of an event on the wire. -/
def wire : EventCode → UInt32
  | burstAck => 0x1
  | underflow => 0x2
  | seqError => 0x4
  | timeError => 0x8
  | underflowInPacket => 0x10
  | seqErrorInBurst => 0x20
  | userPayload => 0x40

/-- Every event. -/
def all : List EventCode :=
  [burstAck, underflow, seqError, timeError, underflowInPacket, seqErrorInBurst, userPayload]

/-- The event of a code. -/
def ofWire? (w : UInt32) : Option EventCode := all.find? (·.wire == w)

theorem ofWire?_wire (c : EventCode) : ofWire? c.wire = some c := by
  cases c <;> rfl

end EventCode

/-- Four words that travel with an event. -/
structure Words where
  first : UInt32 := 0
  second : UInt32 := 0
  third : UInt32 := 0
  fourth : UInt32 := 0
deriving DecidableEq, Repr, Inhabited

/-- An event as the caller sees it. -/
structure Event (α : Type := Float) where
  /-- Position of the channel in the streamer. -/
  channel : Nat
  code : EventCode
  words : Words
  /-- When it happened, if the device says so. -/
  time : Option (Instant α)

end RadioStream
