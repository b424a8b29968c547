import RadioStream.Bytes
/-!
# Frames

A frame is a window of memory with a number in its pool. Of the window the first
`used` bytes count; the rest holds whatever was written there before. A frame to
be sent must be committed, or it goes out empty.
-/

namespace RadioStream

/-- A window of memory. -/
structure Frame where
  /-- Number of the frame in its pool. -/
  slot : Nat
  window : Bytes
  /-- How many bytes of the window count. -/
  used : Nat := 0
deriving Repr

namespace Frame

/-- Size of the window. -/
def capacity (f : Frame) : Nat := f.window.length

/-- The bytes that count. -/
def payload (f : Frame) : Bytes := f.window.take f.used

/-- The frame with a number of bytes that count, at most all of them. -/
def withUsed (f : Frame) (n : Nat) : Frame := { f with used := min n f.capacity }

/-- The frame with a byte string written at a position; what would stand past the
end is left out. -/
def write (f : Frame) (position : Nat) (bs : Bytes) : Frame :=
  { f with window := splice f.window position (bs.take (f.capacity - position)) }

/-- The numbers of a frame in words. -/
def text (f : Frame) : String :=
  "Frame \x7b " ++ s!"slot: {f.slot}, len: {f.used}, capacity: {f.capacity}" ++ " \x7d"

end Frame

/-- A frame taken for sending. -/
structure SendBuffer where
  frame : Frame
  /-- Whether a length was committed. -/
  committed : Bool := false
deriving Repr

namespace SendBuffer

/-- Says how many bytes to send. -/
def commit (b : SendBuffer) (n : Nat) : SendBuffer := ⟨b.frame.withUsed n, true⟩

/-- The frame as it is given up: without a commit it is empty. -/
def release (b : SendBuffer) : Frame := if b.committed then b.frame else b.frame.withUsed 0

end SendBuffer

end RadioStream
