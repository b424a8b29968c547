import RadioStream.Link.Basic
import RadioStream.Packet.Header
/-!
# Terminals

A terminal is one end of a link as a streamer uses it, inside surroundings of any
type: a single link, several links, or a whole simulation that goes on while the
streamer waits. Waits are in nanoseconds.
-/

namespace RadioStream

/-- What a streamer does with its end of a link. -/
structure Terminal (σ : Type) where
  /-- Waits for a frame sent to this end. -/
  receive : Nat → σ → Option Frame × σ
  /-- Lets a received frame go home. -/
  recycle : Frame → σ → σ
  /-- Waits for an idle frame to fill. -/
  acquire : Nat → σ → Option Frame × σ
  /-- Sends a frame; an empty one goes home. -/
  submit : Frame → σ → σ
  /-- How many frames can be received at most before new ones are asked for. -/
  backlog : σ → Nat

namespace Terminal

/-- Writes a packet into a frame and sends it. A packet that does not fit is not
sent, and its frame goes home. -/
def sendIn {σ : Type} (t : Terminal σ) (write : Bytes → Written) (frame : Frame) (s : σ) :
    Except Error Nat × σ :=
  let written := write frame.window
  let buffer : SendBuffer := { frame := { frame with window := written.frame } }
  match written.outcome with
  | .ok length => (.ok length, t.submit (buffer.commit length).release s)
  | .error e => (.error e, t.submit buffer.release s)

/-- Waits for an idle frame and sends a packet in it. Without a frame there is no
result. -/
def send {σ : Type} (t : Terminal σ) (wait : Nat) (write : Bytes → Written) (s : σ) :
    Option (Except Error Nat) × σ :=
  match t.acquire wait s with
  | (none, s) => (none, s)
  | (some frame, s) =>
    let (result, s) := t.sendIn write frame s
    (some result, s)

/-- Waits for a frame, reads it, and lets it go home. -/
def take {σ : Type} (t : Terminal σ) (wait : Nat) (s : σ) : Option Bytes × σ :=
  match t.receive wait s with
  | (some frame, s) => (some frame.payload, t.recycle frame s)
  | (none, s) => (none, s)

/-- Takes the frames that are there, up to a number. -/
def takeUpTo {σ : Type} (t : Terminal σ) : Nat → σ → List Bytes × σ
  | 0, s => ([], s)
  | n + 1, s => match t.take 0 s with
    | (some frame, s) => let (more, s) := takeUpTo t n s; (frame :: more, s)
    | (none, s) => ([], s)

/-- Waits for an idle frame and sends bytes as they are, those that the frame has
room for. -/
def sendBytes {σ : Type} (t : Terminal σ) (wait : Nat) (bs : Bytes) (s : σ) : Bool × σ :=
  let (result, s) := t.send wait (fun w => ⟨.ok bs.length, splice w 0 (bs.take w.length)⟩) s
  (result.isSome, s)

/-- An end of a link where nothing happens while one waits. -/
def ofEnd (e : End) : Terminal Link where
  receive _ l := l.receive e
  recycle f l := l.recycle e f
  acquire _ l := l.acquire e
  submit f l := l.submit e f
  backlog l := l.pending e

/-- A terminal of the element at a position of a list. Without such an element
there is never a frame. -/
def within {τ : Type} (i : Nat) (t : Terminal τ) : Terminal (List τ) where
  receive wait xs := match xs[i]? with
    | some x => let (f, x) := t.receive wait x; (f, xs.set i x)
    | none => (none, xs)
  recycle f xs := xs.modify i (t.recycle f)
  acquire wait xs := match xs[i]? with
    | some x => let (f, x) := t.acquire wait x; (f, xs.set i x)
    | none => (none, xs)
  submit f xs := xs.modify i (t.submit f)
  backlog xs := (xs[i]?.map t.backlog).getD 0

/-- The host end of one of several links. -/
def host (i : Nat) : Terminal (List Link) := within i (ofEnd .host)

/-- The device end of one of several links. -/
def device (i : Nat) : Terminal (List Link) := within i (ofEnd .device)

end Terminal

end RadioStream
