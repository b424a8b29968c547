import RadioStream.Link.Terminal
import RadioStream.Receiver.Condition
/-!
# The packets of the receive channels

Each channel of a receiver holds at most one data packet, of which some samples
may have been handed out already, and knows the sequence number its next packet
should have. This module brings packets in (`fetchAll`), lets them go
(`dropWhere`) and hands out their samples (`advanceAll`).
-/

namespace RadioStream

/-- A frame that comes in on a receive link. -/
inductive Incoming where
  | data (header : Header) (samples : Nat)
  | status (code : RxCode) (tick : Option UInt64)
  | malformed
deriving DecidableEq, Repr

/-- What a frame holds. Packets that do not belong on a receive link count as
malformed, and so do samples that are not whole. -/
def Incoming.ofFrame (format : WireFormat) (frame : Bytes) : Incoming :=
  match Header.decode frame with
  | .error _ => .malformed
  | .ok (h, payload) => match h.kind with
    | .data =>
      if h.payloadLength.toNat % format.sampleBytes = 0 then
        .data h (h.payloadLength.toNat / format.sampleBytes)
      else .malformed
    | .status => match RxCode.decode payload with
      | .ok code => .status code (if h.hasTime then some h.timestamp else none)
      | .error _ => .malformed
    | _ => .malformed

/-- A data packet whose samples are being handed out. -/
structure Held where
  frame : Frame
  header : Header
  /-- Samples in the packet. -/
  samples : Nat
  /-- Samples handed out so far. -/
  offset : Nat := 0

namespace Held

/-- Samples still to be handed out. -/
def remaining (h : Held) : Nat := h.samples - h.offset

/-- The bytes of the samples. -/
def payload (h : Held) : Bytes :=
  (h.frame.payload.drop Header.size).take h.header.payloadLength.toNat

/-- The samples still to be handed out. -/
def unread (h : Held) (format : WireFormat) : List (Iq Int16) :=
  format.decode (h.payload.drop (h.offset * format.sampleBytes))

/-- The tick of the next sample, if the packet has a time. -/
def tick? (h : Held) : Option Nat :=
  if h.header.hasTime then some (h.header.timestamp.toNat + h.offset) else none

/-- Whether the next sample is not at a tick. -/
def behind (newest : Nat) (h : Held) : Bool := h.tick? != some newest

/-- The time of the sample after `offset` samples of a packet. -/
def timeAt {α : Type} [Scalar α] (header : Header) (offset : Nat) (rate : α) : Instant α :=
  Instant.ofTicks (header.timestamp.toInt64.toInt + offset) rate

/-- Whether the next sample is the first of a burst. -/
def startsBurst (h : Held) : Bool := h.header.startOfBurst && h.offset == 0

end Held

/-- A channel of a receiver. -/
structure RxChannel where
  held : Option Held := none
  /-- The sequence number that the next packet should have. -/
  expected : Option UInt16 := none

namespace RxChannel

variable {σ : Type}

/-- Makes sure that a channel holds a packet. A packet after a gap is held too,
but the gap is reported. -/
def fetch (terminal : Terminal σ) (format : WireFormat) (wait : Nat) (c : RxChannel) (s : σ) :
    Option Condition × RxChannel × σ :=
  if c.held.isSome then (none, c, s)
  else match terminal.receive wait s with
    | (none, s) => (some .silence, c, s)
    | (some frame, s) => match Incoming.ofFrame format frame.payload with
      | .malformed => (some .malformed, c, terminal.recycle frame s)
      | .status code tick => (some (.status code tick), c, terminal.recycle frame s)
      | .data header samples =>
        let condition := if c.expected.all (· == header.sequence) then none else some .gap
        (condition, ⟨some { frame, header, samples }, some (header.sequence + 1)⟩, s)

/-- Makes sure that every channel holds a packet, in the order of the channels
and up to the first condition. The first channel has the given number. -/
def fetchAll (terminals : Nat → Terminal σ) (format : WireFormat) (wait : Nat) :
    Nat → List RxChannel → σ → Option Condition × List RxChannel × σ
  | _, [], s => (none, [], s)
  | i, c :: cs, s => match fetch (terminals i) format wait c s with
    | (some condition, c, s) => (some condition, c :: cs, s)
    | (none, c, s) =>
      let (condition, cs, s) := fetchAll terminals format wait (i + 1) cs s
      (condition, c :: cs, s)

/-- Lets go of the packet of a channel if it meets a test. -/
def letGo (terminal : Terminal σ) (test : Held → Bool) (c : RxChannel) (s : σ) : RxChannel × σ :=
  match c.held with
  | some h => if test h then ({ c with held := none }, terminal.recycle h.frame s) else (c, s)
  | none => (c, s)

/-- Lets go of the packets that meet a test. -/
def dropWhere (terminals : Nat → Terminal σ) (test : Held → Bool) :
    Nat → List RxChannel → σ → List RxChannel × σ
  | _, [], s => ([], s)
  | i, c :: cs, s =>
    let (c, s) := letGo (terminals i) test c s
    let (cs, s) := dropWhere terminals test (i + 1) cs s
    (c :: cs, s)

/-- Writes the next `n` samples of the packet of a channel into a buffer, at a
position, and moves past them. A packet without further samples is let go. -/
def advance {S : Type} [HostSample S] (terminal : Terminal σ) (format : WireFormat)
    (position n : Nat) (c : RxChannel) (b : List S) (s : σ) : RxChannel × List S × σ :=
  match c.held with
  | some h =>
    let b := splice b position (((h.unread format).take n).map HostSample.ofRaw)
    let h := { h with offset := h.offset + n }
    if h.remaining = 0 then ({ c with held := none }, b, terminal.recycle h.frame s)
    else ({ c with held := some h }, b, s)
  | none => (c, b, s)

/-- Hands out the next `n` samples of each packet, into the buffer of its
channel. -/
def advanceAll {S : Type} [HostSample S] (terminals : Nat → Terminal σ) (format : WireFormat)
    (position n : Nat) :
    Nat → List RxChannel → List (List S) → σ → List RxChannel × List (List S) × σ
  | i, c :: cs, b :: bs, s =>
    let (c, b, s) := advance (terminals i) format position n c b s
    let (cs, bs, s) := advanceAll terminals format position n (i + 1) cs bs s
    (c :: cs, b :: bs, s)
  | _, cs, bs, s => (cs, bs, s)

end RxChannel

end RadioStream
