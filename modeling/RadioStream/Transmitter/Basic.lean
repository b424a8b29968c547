import RadioStream.Link.Terminal
import RadioStream.Packet.Data
import RadioStream.Stream.Metadata
import RadioStream.Transmitter.Pieces
/-!
# The transmitter

A transmitter cuts the caller's buffers into packets and sends them on one link
per channel. The frames of all channels are taken before any is sent, so a
transmission that is cut short leaves the channels in step.
-/

namespace RadioStream

/-- A transmitter, its links and the events of the device apart. -/
structure Transmitter where
  /-- The sequence number of the next packet of each channel. -/
  sequences : List UInt16
  format : WireFormat
  /-- Ticks, and samples, a second. -/
  rate : Float
  /-- Most samples in a packet. -/
  packetSamples : Nat

namespace Transmitter

variable {σ S : Type}

/-- A transmitter over links with the given sizes of send frames. Packets carry at
most `packetSamples` samples and no more than the smallest frame has room
for. -/
def new (frameSizes : List Nat) (format : WireFormat) (rate : Float) (packetSamples : Nat) :
    Except Error Transmitter :=
  match frameSizes.min? with
  | none => .error (.argument .transmitWithoutChannel)
  | some frame =>
    let packetSamples := min packetSamples ((frame - Header.size) / format.sampleBytes)
    if packetSamples = 0 then .error (.argument (.sendFrameTooSmall frame format))
    else .ok { sequences := frameSizes.map fun _ => 0, format, rate, packetSamples }

/-- The header of a packet, its number and length apart. The start of a burst and
the time go with the first packet, the end of a burst with the last. -/
def header (t : Transmitter) (md : TxMetadata) (first last endsVector : Bool) : Header :=
  Header.stamped
    { startOfBurst := first && md.startOfBurst, endOfBurst := last && md.endOfBurst
      endOfVector := endsVector }
    (if first && md.hasTime then some (md.time.startTick t.rate) else none)

/-- Takes a frame of each channel from number `i` on. If a channel has none, the
frames already taken go home. -/
def acquireAll (terminals : Nat → Terminal σ) (wait : Nat) (i : Nat) :
    Nat → σ → Option (List Frame) × σ
  | 0, s => (some [], s)
  | n + 1, s => match (terminals i).acquire wait s with
    | (none, s) => (none, s)
    | (some frame, s) => match acquireAll terminals wait (i + 1) n s with
      | (some frames, s) => (some (frame :: frames), s)
      | (none, s) => (none, (terminals i).submit (SendBuffer.release { frame }) s)

/-- Sends one frame on each channel from number `i` on, with the samples of its
buffer. A channel counts the packets it sends. -/
def sendAll [HostSample S] (terminals : Nat → Terminal σ) (format : WireFormat) (h : Header) :
    Nat → List UInt16 → List (List S) → List Frame → σ → List UInt16 × σ
  | i, q :: qs, b :: bs, f :: fs, s =>
    let write := Header.encodeSamples { h with sequence := q } format b
    let (result, s) := (terminals i).sendIn write f s
    let q := if result.isOk then q + 1 else q
    let (qs, s) := sendAll terminals format h (i + 1) qs bs fs s
    (q :: qs, s)
  | _, qs, _, _, s => (qs, s)

/-- Sends the samples of a piece as one packet on each channel. False if a channel
has no frame for it. -/
def sendPiece [HostSample S] (terminals : Nat → Terminal σ) (wait : Nat) (t : Transmitter)
    (buffers : List (List S)) (h : Header) (p : Piece) (s : σ) : Bool × Transmitter × σ :=
  match acquireAll terminals wait 0 t.sequences.length s with
  | (none, s) => (false, t, s)
  | (some frames, s) =>
    let samples := buffers.map fun b => (b.drop p.start).take (p.stop - p.start)
    let (sequences, s) := sendAll terminals t.format h 0 t.sequences samples frames s
    (true, { t with sequences }, s)

/-- Sends pieces up to the first that finds no frame. Gives the samples sent. -/
def sendPieces [HostSample S] (terminals : Nat → Terminal σ) (wait count : Nat) (md : TxMetadata)
    (buffers : List (List S)) : List Piece → Transmitter → σ → Nat × Transmitter × σ
  | [], t, s => (count, t, s)
  | p :: ps, t, s =>
    let h := t.header md (p.start == 0) (p.stop == count) p.endsVector
    match t.sendPiece terminals wait buffers h p s with
    | (true, t, s) => sendPieces terminals wait count md buffers ps t s
    | (false, t, s) => (p.start, t, s)

/-- Sends `count` samples of each buffer and gives how many were sent. Without
samples, the start or the end of a burst still goes out as an empty packet. -/
def send [HostSample S] (terminals : Nat → Terminal σ) (t : Transmitter) (buffers : List (List S))
    (count wait : Nat) (md : TxMetadata) (s : σ) : Except Error Nat × Transmitter × σ :=
  if buffers.length ≠ t.sequences.length then
    (.error (.argument (.bufferCount t.sequences.length buffers.length)), t, s)
  else match buffers.find? (·.length < count) with
    | some short => (.error (.argument (.shortBuffer short.length count)), t, s)
    | none =>
      if count = 0 then
        if md.startOfBurst || md.endOfBurst then
          let (_, t, s) :=
            t.sendPiece terminals wait buffers (t.header md true true false) ⟨0, 0, false⟩ s
          (.ok 0, t, s)
        else (.ok 0, t, s)
      else
        let (sent, t, s) :=
          sendPieces terminals wait count md buffers (Piece.cut t.packetSamples md.eov count) t s
        (.ok sent, t, s)

end Transmitter

end RadioStream
