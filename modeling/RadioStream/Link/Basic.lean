import RadioStream.Link.Geometry
import RadioStream.Link.Pool
/-!
# Links

A link joins the host and the device by two lanes. A frame sent on a lane waits
for the other end, which receives it and, when done with it, lets it go home to
the pool it was taken from. Nothing is copied on the way. An empty frame is not
delivered and goes home at once.
-/

namespace RadioStream

/-- The two ends of a link. -/
inductive End where
  | host
  | device
deriving DecidableEq, Repr, Inhabited

/-- The opposite end. -/
def End.other : End → End
  | host => device
  | device => host

/-- One direction of a link. -/
structure Lane where
  /-- The pool of the sending end. -/
  home : Pool
  /-- Frames sent and not yet received. -/
  waiting : Queue Frame

namespace Lane

/-- A lane with all its frames at home. -/
def new (frameSize frames : Nat) : Except Error Lane := do
  return { home := ← Pool.new frameSize frames, waiting := Queue.new frames }

/-- Takes an idle frame to fill. -/
def acquire (l : Lane) : Option Frame × Lane :=
  let (f, home) := l.home.acquire
  (f, { l with home })

/-- Lets a frame go home. -/
def recycle (l : Lane) (f : Frame) : Lane := { l with home := l.home.release f }

/-- Sends a frame on its way, or home if it is empty. -/
def submit (l : Lane) (f : Frame) : Lane :=
  if f.used = 0 then l.recycle f
  else match l.waiting.push? f with
    | some waiting => { l with waiting }
    | none => l.recycle f

/-- Takes the frame that has waited longest. -/
def receive (l : Lane) : Option Frame × Lane :=
  let (f, waiting) := l.waiting.take
  (f, { l with waiting })

end Lane

/-- Two lanes, and whether an end was given up. -/
structure Link where
  toHost : Lane
  toDevice : Lane
  closed : Bool := false

namespace Link

/-- A link whose host end has the given geometry. -/
def new (g : Geometry) : Except Error Link := do
  let toDevice ← Lane.new g.sendFrameSize g.sendFrames
  let toHost ← Lane.new g.recvFrameSize g.recvFrames
  return { toHost, toDevice }

/-- The lane on which an end receives. -/
def inbound (l : Link) : End → Lane
  | .host => l.toHost
  | .device => l.toDevice

/-- The link with another lane towards an end. -/
def withInbound (l : Link) (e : End) (lane : Lane) : Link :=
  match e with
  | .host => { l with toHost := lane }
  | .device => { l with toDevice := lane }

/-- The lane on which an end sends. -/
def outbound (l : Link) (e : End) : Lane := l.inbound e.other

/-- The link with another lane from an end. -/
def withOutbound (l : Link) (e : End) (lane : Lane) : Link := l.withInbound e.other lane

/-- An end takes an idle frame to fill. -/
def acquire (l : Link) (e : End) : Option Frame × Link :=
  let (f, lane) := (l.outbound e).acquire
  (f, l.withOutbound e lane)

/-- An end sends a frame. -/
def submit (l : Link) (e : End) (f : Frame) : Link :=
  l.withOutbound e ((l.outbound e).submit f)

/-- An end receives a frame. -/
def receive (l : Link) (e : End) : Option Frame × Link :=
  let (f, lane) := (l.inbound e).receive
  (f, l.withInbound e lane)

/-- An end is done with a frame it received. -/
def recycle (l : Link) (e : End) (f : Frame) : Link :=
  l.withInbound e ((l.inbound e).recycle f)

/-- Number of frames that wait for an end. -/
def pending (l : Link) (e : End) : Nat := (l.inbound e).waiting.size

/-- An end is given up. What is on its way still arrives. -/
def close (l : Link) : Link := { l with closed := true }

/-- The geometry of an end. -/
def geometry (l : Link) (e : End) : Geometry :=
  { recvFrameSize := (l.inbound e).home.frameSize
    sendFrameSize := (l.outbound e).home.frameSize
    recvFrames := (l.inbound e).home.frames
    sendFrames := (l.outbound e).home.frames }

end Link

end RadioStream
