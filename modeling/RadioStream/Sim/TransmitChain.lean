import RadioStream.Link.Terminal
import RadioStream.Packet.Control
import RadioStream.Queue
import RadioStream.Sample
import RadioStream.Sim.Clock
import RadioStream.Sim.Pause
/-!
# The transmit chain

The transmit path of one channel of a simulated device. It reads data packets
from its link, plays them at their time, and raises an event for what a listener
on the air would notice:

    burstAck            the packet that ends a burst was played
    underflow           a burst stalled for longer than it may
    underflowInPacket   a payload ends inside a sample
    seqError            a sequence number was skipped between bursts
    seqErrorInBurst     a sequence number was skipped inside a burst
    timeError           a packet came after its time; its burst is dropped
    userPayload         words were injected

An event that finds no frame for a while is lost. The chain moves in steps, and
no step takes more than one frame from either lane of the link.
-/

namespace RadioStream.Sim

/-- An event that the chain raises. -/
structure Alarm where
  code : EventCode
  tick : Nat
  words : Words := ⟨0, 0, 0, 0⟩

/-- What a transmit chain does next. -/
inductive TransmitPhase where
  /-- Looks for injected words. -/
  | attend
  /-- Looks for a packet. -/
  | listen
  /-- Decides what becomes of a packet with a payload of some bytes. -/
  | judge (h : Header) (length : Nat)
  /-- Waits for the time of a packet. -/
  | hold (h : Header) (length : Nat) (time : Nat)
  /-- Plays a packet. -/
  | play (h : Header) (length : Nat)
  /-- Is done with a packet. -/
  | finish (h : Header)
  /-- Nothing any more. -/
  | stopped

/-- The transmit chain of a channel. -/
structure TransmitChain where
  channel : Nat
  format : WireFormat
  /-- Nanoseconds that a burst may stall. -/
  stall : Nat
  /-- Words that wait to be raised. -/
  injections : Queue Words
  /-- The sequence number that follows the last packet. -/
  expected : Option UInt16 := none
  inBurst : Bool := false
  /-- Whether packets are dropped up to the end of their burst. -/
  dropping : Bool := false
  /-- When the last packet came. -/
  lastPacket : Nat := 0
  /-- The event to raise before anything else. -/
  alarm : Option Alarm := none
  phase : TransmitPhase := .attend

namespace TransmitChain

/-- What the chain waits for before its next step. -/
def pause (c : TransmitChain) : Pause :=
  if c.alarm.isSome then .room poll
  else match c.phase with
    | .listen => .frame poll
    | .hold _ _ time => .sleep time
    | .attend | .judge .. | .play .. | .finish _ | .stopped => .none

/-- The chain about to do something else. -/
def goTo (c : TransmitChain) (phase : TransmitPhase) : TransmitChain := { c with phase }

/-- The chain about to raise an event. -/
def raising (c : TransmitChain) (code : EventCode) (tick : Nat) (words : Words := ⟨0, 0, 0, 0⟩) :
    TransmitChain :=
  { c with alarm := some { code, tick, words } }

/-- Sends an event, if a frame is idle. -/
def send (c : TransmitChain) (a : Alarm) (l : Link) : Link :=
  let report : EventReport := ⟨UInt32.ofNat c.channel, a.code, a.words⟩
  ((Terminal.ofEnd .device).send 0 (report.encode (some (UInt64.ofNat a.tick))) l).2

/-- Looks for injected words. -/
def attend (now : Reading) (c : TransmitChain) (l : Link) : TransmitChain × Link :=
  if l.closed then (c.goTo .stopped, l)
  else match c.injections.take with
    | (some words, injections) => ({ c with injections }.raising .userPayload now.tick words, l)
    | (none, _) => (c.goTo .listen, l)

/-- Takes note of a data packet. A number that does not follow the one before is
an event. -/
def note (now : Reading) (c : TransmitChain) (h : Header) (length : Nat) : TransmitChain :=
  let skipped := c.expected.any (· != h.sequence)
  let code := if c.inBurst then .seqErrorInBurst else .seqError
  let c := { c with lastPacket := now.elapsed, expected := some (h.sequence + 1)
                    phase := .judge h length }
  if skipped then c.raising code now.tick else c

/-- Looks for a packet. Without one, a burst that stalls for too long is an
event. -/
def listen (now : Reading) (c : TransmitChain) (l : Link) : TransmitChain × Link :=
  let c := c.goTo .attend
  match (Terminal.ofEnd .device).take 0 l with
  | (none, l) =>
    if c.inBurst && c.lastPacket + c.stall < now.elapsed then
      ({ c with inBurst := false }.raising .underflow now.tick, l)
    else (c, l)
  | (some frame, l) => match Header.decode frame with
    | .ok (h, payload) => (if h.kind = .data then c.note now h payload.length else c, l)
    | .error _ => (c, l)

/-- Decides what becomes of a packet. The start of a burst ends the dropping of
another. A packet that comes after its time is an event and drops the rest of its
burst. -/
def judge (now : Reading) (c : TransmitChain) (h : Header) (length : Nat) : TransmitChain :=
  if c.dropping && !h.startOfBurst then
    { c with dropping := !h.endOfBurst, phase := .attend }
  else if h.hasTime && h.timestamp.toNat < now.tick then
    { c with inBurst := false, dropping := !h.endOfBurst, phase := .attend }.raising .timeError
      h.timestamp.toNat
  else { c with dropping := false, phase := if h.hasTime then .hold h length 0 else .play h length }

/-- Waits for the time of a packet. -/
def hold (now : Reading) (c : TransmitChain) (h : Header) (length : Nat) (l : Link) :
    TransmitChain × Link :=
  match now.left? h.timestamp.toNat with
  | none => (c.goTo .stopped, l.close)
  | some 0 => (c.goTo (.play h length), l)
  | some (time + 1) => (c.goTo (.hold h length (min (time + 1) poll)), l)

/-- Plays a packet. A payload that ends inside a sample is an event. -/
def play (now : Reading) (c : TransmitChain) (h : Header) (length : Nat) : TransmitChain :=
  let c := c.goTo (.finish h)
  if length % c.format.sampleBytes ≠ 0 then c.raising .underflowInPacket now.tick else c

/-- Is done with a packet. The end of a burst is acknowledged. -/
def finish (now : Reading) (c : TransmitChain) (h : Header) : TransmitChain :=
  let c := { c with inBurst := !h.endOfBurst, phase := .attend }
  if h.endOfBurst then c.raising .burstAck now.tick else c

/-- One step of the chain. -/
def step (now : Reading) (c : TransmitChain) (l : Link) : TransmitChain × Link :=
  match c.alarm with
  | some a => ({ c with alarm := none }, c.send a l)
  | none => match c.phase with
    | .attend => c.attend now l
    | .listen => c.listen now l
    | .judge h length => (c.judge now h length, l)
    | .hold h length _ => c.hold now h length l
    | .play h length => (c.play now h length, l)
    | .finish h => (c.finish now h, l)
    | .stopped => (c, l)

end TransmitChain

end RadioStream.Sim
