import RadioStream.Link.Terminal
import RadioStream.Packet.Control
/-!
# Events of the device

Beside a transmitter, a reader visits its links in turn and keeps the events that
the device sends, the last thousand of them, until the caller takes them.
-/

namespace RadioStream

/-- The event that a frame holds, received on the given channel of a streamer. -/
def Event.ofFrame? (rate : Float) (channel : Nat) (frame : Bytes) : Option Event :=
  match Header.decode frame with
  | .ok (h, payload) =>
    if h.kind = .event then
      match EventReport.decode payload with
      | .ok e => some
        { channel, code := e.code, words := e.words
          time := if h.hasTime then some (Instant.ofCounter h.timestamp rate) else none }
      | .error _ => none
    else none
  | .error _ => none

/-- The events read and not yet taken. -/
structure EventReader where
  rate : Float
  queue : Queue Event

namespace EventReader

variable {σ : Type}

/-- Events kept before the oldest gives way. -/
def depth : Nat := 1000

/-- How long a visit waits for a frame. -/
def visitWait : Nat := 2000000

/-- A reader without events. -/
def new (rate : Float) : EventReader := ⟨rate, Queue.new depth⟩

/-- Keeps the event of a frame; frames that hold none are passed over. -/
def keep (r : EventReader) (channel : Nat) (frame : Bytes) : EventReader :=
  match Event.ofFrame? r.rate channel frame with
  | some e => { r with queue := (r.queue.pushForce e).2 }
  | none => r

/-- Visits the link of a channel and takes at most one frame from it. -/
def visit (terminal : Terminal σ) (channel wait : Nat) (r : EventReader) (s : σ) :
    EventReader × σ :=
  match terminal.take wait s with
  | (some frame, s) => (r.keep channel frame, s)
  | (none, s) => (r, s)

theorem visit_eq (terminal : Terminal σ) (channel wait : Nat) (r : EventReader) (s : σ) :
    r.visit terminal channel wait s = ((terminal.take wait s).1.elim r (r.keep channel), (terminal.take wait s).2) := by
  unfold visit
  rcases terminal.take wait s with ⟨_ | frame, s⟩ <;> rfl

/-- Visits the links of a number of channels in turn. -/
def round (terminals : Nat → Terminal σ) (channels wait : Nat) (r : EventReader) (s : σ) :
    EventReader × σ :=
  (List.range channels).foldl (fun (r, s) i => r.visit (terminals i) i wait s) (r, s)

/-- Makes rounds until no link has a frame waiting. -/
def drain (terminals : Nat → Terminal σ) (channels : Nat) (r : EventReader) (s : σ) :
    EventReader × σ :=
  let most := ((List.range channels).map fun i => (terminals i).backlog s).foldl max 0
  (List.range most).foldl (fun (r, s) _ => r.round terminals channels 0 s) (r, s)

/-- Takes the oldest event. -/
def take (r : EventReader) : Option Event × EventReader :=
  let (e, queue) := r.queue.take
  (e, { r with queue })

end EventReader

end RadioStream
