import RadioStream.Error
import RadioStream.Link.Frame
import RadioStream.Queue
/-!
# Frame pools

A pool makes all its frames at once and keeps the idle ones in a queue. Taking a
frame moves it out, releasing it empties it and puts it back at the end.
-/

namespace RadioStream

/-- Frames of one size. -/
structure Pool where
  frameSize : Nat
  frames : Nat
  /-- The idle frames, in the order they will be taken. -/
  idle : Queue Frame

namespace Pool

/-- The frame of a slot, all zero. -/
def blankFrame (blank : Bytes) (slot : Nat) : Frame := { slot, window := blank }

/-- A pool with all its frames idle. There must be frames and they must hold
something. -/
def new (frameSize frames : Nat) : Except Error Pool :=
  if frameSize = 0 ∨ frames = 0 then .error (.argument (.emptyPool frameSize frames))
  else
    let blank : Bytes := List.replicate frameSize 0
    .ok { frameSize, frames
          idle :=
            { capacity := max frames 1, items := (List.range frames).map (blankFrame blank)
              capacity_pos := Nat.le_max_right frames 1
              bounded := by
                rw [List.length_map, List.length_range]
                exact Nat.le_max_left frames 1 } }

/-- Number of idle frames. -/
def available (p : Pool) : Nat := p.idle.size

/-- Takes an idle frame. -/
def acquire (p : Pool) : Option Frame × Pool :=
  let (f, idle) := p.idle.take
  (f, { p with idle })

/-- Takes a frame back, emptied. A pool that is full already drops it. -/
def release (p : Pool) (f : Frame) : Pool :=
  { p with idle := (p.idle.push? { f with used := 0 }).getD p.idle }

/-- The numbers of a pool in words. -/
def text (p : Pool) : String :=
  "BufferPool \x7b " ++
    s!"frame_size: {p.frameSize}, num_frames: {p.frames}, available: {p.available}" ++ " \x7d"

end Pool

end RadioStream
