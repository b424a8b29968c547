import RadioStream.Link.Terminal
import RadioStream.Packet.Control
import RadioStream.Packet.Data
import RadioStream.Sim.Clock
import RadioStream.Sim.Pause
import RadioStream.Sim.Ramp
/-!
# The receive chain

The receive path of one channel of a simulated device. It reads stream commands
from its link and sends packets of a ramp, each when the clock has reached its
end. A command to start at once starts on a whole number of packets, a timed one
at its time and not after it. Continuous streaming goes on after samples were
lost for want of a frame, and says so first; streaming of a fixed count ends
there.

The chain moves in steps. No step takes more than one frame from either lane of
the link, so whatever the host does between two frames falls between two steps.

Ticks are numbers without end here, those of a device have sixty-four bits. That makes a
difference only where the clock or a start comes within two packets of the end of these
(`ticks_fit`).
-/

namespace RadioStream.Sim

/-- Streaming in progress. -/
structure Burst where
  mode : StreamMode
  /-- Samples left of a fixed count. -/
  remaining : Nat
  /-- The tick of the next packet, which may be past the end of sixty-four bits. -/
  nextTick : Nat
  /-- Whether the next packet starts the burst. -/
  starts : Bool

/-- What a receive chain does next. -/
inductive ReceivePhase where
  /-- Looks for a command. -/
  | listen
  /-- Reports an overflow it owes. -/
  | report
  /-- Begins the burst of the oldest command. -/
  | begin
  /-- Sends a packet when it is time. -/
  | produce
  /-- Sends the end of a burst, as soon as there is a frame. -/
  | finish (tick : Nat)
  /-- Reports that no command continues the burst. -/
  | breakOff (tick : Nat)
  /-- Sleeps. -/
  | rest (time : Nat)
  /-- Nothing any more. -/
  | stopped
deriving DecidableEq, Repr, Inhabited

/-- The receive chain of a channel. -/
structure ReceiveChain where
  format : WireFormat
  rate : Float
  /-- Most samples in a packet. -/
  packetSamples : Nat
  /-- Commands not yet begun. -/
  commands : List StreamCommand := []
  burst : Option Burst := none
  sequence : UInt16 := 0
  /-- The tick of an overflow that is still to be reported. -/
  overflow : Option Nat := none
  phase : ReceivePhase := .listen

namespace Burst

/-- The burst that a command begins at a tick. -/
def ofCommand (c : StreamCommand) (tick : Nat) (starts : Bool) : Burst :=
  { mode := c.mode, remaining := c.samples.toNat, nextTick := tick, starts }

/-- Samples in the next packet. -/
def count (b : Burst) (packetSamples : Nat) : Nat :=
  if b.mode.isFixedCount then min b.remaining packetSamples else packetSamples

/-- Whether a packet of `n` samples ends the burst. -/
def ends (b : Burst) (n : Nat) : Bool := b.mode == .samplesAndDone && b.remaining == n

/-- The header of the next packet, its length apart. -/
def header (b : Burst) (n : Nat) (sequence : UInt16) : Header :=
  Header.stamped { startOfBurst := b.starts, endOfBurst := b.ends n, sequence }
    (some (UInt64.ofNat b.nextTick))

/-- The samples of the next packet. -/
def samples (b : Burst) (n : Nat) : List (Iq Int16) := (List.range' b.nextTick n).map ramp

/-- The burst after a packet of `n` samples. -/
def sent (b : Burst) (n : Nat) : Burst :=
  { b with
    nextTick := b.nextTick + n, starts := false
    remaining := if b.mode.isFixedCount then b.remaining - n else b.remaining }

/-- The burst after `n` samples that found no frame. -/
def skipped (b : Burst) (n : Nat) : Burst := { b with nextTick := b.nextTick + n, starts := true }

end Burst

namespace ReceiveChain

/-- What the chain waits for before its next step. -/
def pause (c : ReceiveChain) : Pause :=
  match c.phase with
  | .listen => if c.burst.isSome then .none else .frame poll
  | .finish _ => .room poll
  | .rest time => .sleep time
  | .report | .begin | .produce | .breakOff _ | .stopped => .none

/-- The chain about to do something else. -/
def goTo (c : ReceiveChain) (phase : ReceivePhase) : ReceiveChain := { c with phase }

/-- Ends for good, and gives up its end of the link. -/
def stop (c : ReceiveChain) (l : Link) : ReceiveChain × Link := (c.goTo .stopped, l.close)

/-- Sends a packet, if a frame is idle. -/
def send (write : Bytes → Written) (l : Link) : Option (Except Error Nat) × Link :=
  (Terminal.ofEnd .device).send 0 write l

/-- Reports a condition at a tick; false if the report did not get out. -/
def sendStatus (code : RxCode) (tick : Nat) (l : Link) : Bool × Link :=
  let (result, l) := send (code.encode (some (UInt64.ofNat tick))) l
  (result.any (·.isOk), l)

/-! ## Commands -/

/-- The command that a frame holds. -/
def command? (rate : Float) (frame : Bytes) : Option StreamCommand :=
  match Header.decode frame with
  | .ok (h, payload) =>
    if h.kind = .command then (StreamCommand.decode h payload rate).toOption else none
  | .error _ => none

/-- Takes note of a command. A stop drops the commands not yet begun and ends the
burst; while streaming continuously no other command is taken. -/
def handle (c : ReceiveChain) (command : StreamCommand) : ReceiveChain :=
  if command.mode = .stopContinuous then
    let c := { c with commands := [] }
    match c.burst with
    | some b => { c with burst := none, phase := .finish b.nextTick }
    | none => c.goTo .listen
  else if c.burst.any (·.mode == .startContinuous) then c.goTo .listen
  else { c with commands := c.commands ++ [command], phase := .listen }

/-- Looks for a command. -/
def listen (c : ReceiveChain) (l : Link) : ReceiveChain × Link :=
  if l.closed then c.stop l
  else
    let (frame, l) := (Terminal.ofEnd .device).take 0 l
    match frame.bind (command? c.rate) with
    | some command => (c.handle command, l)
    | none => (c.goTo .report, l)

/-- Reports an overflow, if one is owed. Between bursts nothing else is done
before the report got out. -/
def reportOverflow (c : ReceiveChain) (l : Link) : ReceiveChain × Link :=
  match c.overflow with
  | none => (c.goTo .begin, l)
  | some tick => match sendStatus .overflow tick l with
    | (true, l) => ({ c with overflow := none, phase := .begin }, l)
    | (false, l) => (c.goTo (if c.burst.isNone then .rest poll else .begin), l)

/-- The tick at which a command starts; none if it is late. At once means with the
next packet of those that tile the ticks from zero on, however many bits its tick has. -/
def startTick? (c : ReceiveChain) (now : Nat) (command : StreamCommand) : Option Nat :=
  if command.immediate then
    some ((now + c.packetSamples - 1) / c.packetSamples * c.packetSamples)
  else
    let tick := (command.time.startTick c.rate).toNat
    if tick < now then none else some tick

/-- The chain after a command that starts at a tick. No samples make no burst. -/
def start (c : ReceiveChain) (command : StreamCommand) (tick : Nat) : ReceiveChain :=
  if command.mode.isFixedCount && command.samples == 0 then
    c.goTo (if command.mode = .samplesAndDone then .finish tick else .listen)
  else { c with burst := some (.ofCommand command tick true), phase := .produce }

/-- Begins the burst of the oldest command, unless one is in progress. A command
that is late is reported and dropped. Packets of no size tile no ticks, and then
the chain ends. -/
def beginBurst (now : Reading) (c : ReceiveChain) (l : Link) : ReceiveChain × Link :=
  if c.burst.isSome then (c.goTo .produce, l)
  else match c.commands with
    | [] => (c.goTo .listen, l)
    | command :: commands =>
      let c := { c with commands }
      if command.immediate && c.packetSamples = 0 then c.stop l
      else match c.startTick? now.tick command with
      | some tick => (c.start command tick, l)
      | none => (c.goTo .listen, (sendStatus .lateCommand now.tick l).2)

/-! ## Samples -/

/-- The chain after a packet that found no frame. -/
def overflowed (c : ReceiveChain) (b : Burst) (n : Nat) : ReceiveChain :=
  let b := b.skipped n
  let c := { c with overflow := some b.nextTick, phase := .listen }
  if b.mode.isFixedCount then { c with burst := none, commands := [] }
  else { c with burst := some b }

/-- The chain after a packet of `n` samples. A count that has run out ends the
burst, or the oldest command goes on with it. -/
def advanced (c : ReceiveChain) (b : Burst) (n : Nat) : ReceiveChain :=
  let b := b.sent n
  let c := { c with sequence := c.sequence + 1, phase := .listen }
  if !b.mode.isFixedCount || b.remaining != 0 then { c with burst := some b }
  else if b.mode = .samplesAndMore then
    match c.commands with
    | command :: commands =>
      { c with commands, burst := some (.ofCommand command b.nextTick false) }
    | [] => { c with burst := none, phase := .breakOff b.nextTick }
  else { c with burst := none }

/-- Sends the next packet of the burst when the clock has reached its end. -/
def produce (now : Reading) (c : ReceiveChain) (l : Link) : ReceiveChain × Link :=
  match c.burst with
  | none => (c.goTo .listen, l)
  | some b =>
    let n := b.count c.packetSamples
    match now.left? (b.nextTick + n) with
    | none => c.stop l
    | some (time + 1) => (c.goTo (.rest (min (time + 1) poll)), l)
    | some 0 => match send ((b.header n c.sequence).encodeSamples c.format (b.samples n)) l with
      | (none, l) => (c.overflowed b n, l)
      | (some (.ok _), l) => (c.advanced b n, l)
      | (some (.error _), l) => c.stop l

/-- Sends an empty packet that ends a burst at a tick. -/
def finish (c : ReceiveChain) (tick : Nat) (l : Link) : ReceiveChain × Link :=
  let h := Header.stamped { endOfBurst := true, sequence := c.sequence } (some (UInt64.ofNat tick))
  match send (h.encodePacket []) l with
  | (some (.ok _), l) => ({ c with sequence := c.sequence + 1, phase := .listen }, l)
  | (some (.error _), l) => (c.goTo .listen, l)
  | (none, l) => if l.closed then c.stop l else (c, l)

/-! ## Steps -/

/-- One step of the chain. -/
def step (now : Reading) (c : ReceiveChain) (l : Link) : ReceiveChain × Link :=
  match c.phase with
  | .listen => c.listen l
  | .report => c.reportOverflow l
  | .begin => c.beginBurst now l
  | .produce => c.produce now l
  | .finish tick => c.finish tick l
  | .breakOff tick => (c.goTo .listen, (sendStatus .brokenChain tick l).2)
  | .rest _ => (c.goTo .listen, l)
  | .stopped => (c, l)

end ReceiveChain

end RadioStream.Sim
