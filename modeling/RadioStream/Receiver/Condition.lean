import RadioStream.Packet.Control
/-!
# Conditions that end a receive

A receive call ends early when a channel has nothing to offer, when the device
reports a condition of its own, when a packet is malformed or missing, or when
the channels cannot be aligned. `Condition.report` writes a condition into the
metadata of the call, and `StreamState.after` says how a report of the device
changes what the host takes the device to be doing.
-/

namespace RadioStream

/-- What the host takes the device to be doing. -/
inductive StreamState where
  /-- No command is in effect. -/
  | idle
  /-- Streaming under a command of this mode. -/
  | streaming (mode : StreamMode)
deriving DecidableEq, Repr, Inhabited

/-- What ends a receive. -/
inductive Condition where
  /-- No frame came in time. -/
  | silence
  /-- The device reports a condition, perhaps with its tick. -/
  | status (code : RxCode) (tick : Option UInt64)
  /-- The frame is not a packet that belongs here. -/
  | malformed
  /-- The packet is not the one after its predecessor. -/
  | gap
  /-- The channels did not come to one time. -/
  | misaligned
deriving DecidableEq, Repr, Inhabited

namespace Condition

/-- The code a condition is reported with. -/
def code : Condition → RxCode
  | silence => .timeout
  | status code _ => code
  | malformed => .badPacket
  | gap => .overflow
  | misaligned => .alignment

/-- The metadata with the condition in it. -/
def report (c : Condition) (rate : Float) (md : RxMetadata) : RxMetadata :=
  let md := { md with code := c.code, outOfSequence := c == gap }
  match c with
  | status _ (some tick) => { md with hasTime := true, time := Instant.ofCounter tick rate }
  | _ => md

end Condition

/-- The state after a condition. A late command and a broken chain end the
stream, and so does an overflow unless streaming is continuous. -/
def StreamState.after (s : StreamState) : Condition → StreamState
  | .status .lateCommand _ => .idle
  | .status .brokenChain _ => .idle
  | .status .overflow _ => if s = .streaming .startContinuous then s else .idle
  | _ => s

/-- The state once a command is on its way. -/
def StreamState.ofCommand (c : StreamCommand) : StreamState :=
  if c.isStart then .streaming c.mode else .idle

end RadioStream
