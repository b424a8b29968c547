import RadioStream.Address.Value
/-!
# Frame geometry

How many frames of what size one end of a link sends and receives.
-/

namespace RadioStream

/-- The frames of one end of a link. -/
structure Geometry where
  recvFrameSize : Nat := 8000
  sendFrameSize : Nat := 8000
  recvFrames : Nat := 32
  sendFrames : Nat := 32
deriving DecidableEq, Repr, Inhabited

namespace Geometry

/-- The geometry with the values that an address gives. -/
def withArguments (g : Geometry) (args : Address) : Except Error Geometry := do
  let recvFrameSize ← args.wordD "recv_frame_size" g.recvFrameSize
  let sendFrameSize ← args.wordD "send_frame_size" g.sendFrameSize
  let recvFrames ← args.wordD "num_recv_frames" g.recvFrames
  let sendFrames ← args.wordD "num_send_frames" g.sendFrames
  return { recvFrameSize, sendFrameSize, recvFrames, sendFrames }

/-- The geometry of the other end of the link. -/
def opposite (g : Geometry) : Geometry :=
  ⟨g.sendFrameSize, g.recvFrameSize, g.sendFrames, g.recvFrames⟩

end Geometry

end RadioStream
