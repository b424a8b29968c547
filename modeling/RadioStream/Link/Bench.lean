import RadioStream.Link.Basic
/-!
# Frames in use

A bench has pools, perhaps a link, and the frames that callers hold under names.
A buffer knows where its frame goes when it is given up; a bare frame goes
nowhere by itself.
-/

namespace RadioStream

/-- Where the frame of a buffer goes when the buffer is given up. -/
inductive Home where
  /-- Back to a pool. -/
  | pool (i : Nat)
  /-- On its way from an end of the link. -/
  | outbound (e : End)
  /-- Back to the other end of the link, from the end that received it. -/
  | inbound (e : End)

/-- What a caller holds. -/
inductive Loan where
  | frame (f : Frame)
  | send (b : SendBuffer) (home : Home)
  | receive (f : Frame) (home : Home)

namespace Loan

/-- The loan with a byte string written at a position of its window. What was
received is not written to. -/
def write (position : Nat) (bs : Bytes) : Loan → Loan
  | frame f => frame (f.write position bs)
  | send b home => send { b with frame := b.frame.write position bs } home
  | receive f home => receive f home

/-- The loan with a number of bytes that count. -/
def commit (n : Nat) : Loan → Loan
  | frame f => frame (f.withUsed n)
  | send b home => send (b.commit n) home
  | receive f home => receive f home

/-- The frame that is held. -/
def held : Loan → Frame
  | frame f => f
  | send b _ => b.frame
  | receive f _ => f

end Loan

/-- Pools, a link, and what callers hold under names. -/
structure Bench where
  pools : List Pool
  link : Option Link
  loans : List (String × Loan) := []

namespace Bench

/-- What is held under a name. -/
def loan? (b : Bench) (name : String) : Option Loan := b.loans.lookup name

/-- The bench with nothing under a name. -/
def without (b : Bench) (name : String) : Bench :=
  { b with loans := b.loans.filter (·.1 != name) }

/-- Sends a frame where it goes. -/
def giveTo (b : Bench) (f : Frame) : Home → Bench
  | .pool i => { b with pools := b.pools.modify i (·.release f) }
  | .outbound e => { b with link := b.link.map (·.submit e f) }
  | .inbound e => { b with link := b.link.map (·.recycle e f) }

/-- Gives up what was held. -/
def drop (b : Bench) : Loan → Bench
  | .frame _ => b
  | .send s home => b.giveTo s.release home
  | .receive f home => b.giveTo f home

/-- Holds something under a name, and then gives up what was there. -/
def put (b : Bench) (name : String) (x : Loan) : Bench :=
  let old := b.loan? name
  let b := b.without name
  let b := { b with loans := (name, x) :: b.loans }
  match old with
  | some old => b.drop old
  | none => b

/-- Takes an idle frame of a pool. -/
def takeFrom (b : Bench) (i : Nat) (name : String) : Bench :=
  match b.pools[i]? with
  | none => b
  | some p =>
    let (f, p) := p.acquire
    let b := { b with pools := b.pools.set i p }
    match f with
    | some f => b.put name (.frame f)
    | none => b

/-- Takes an idle frame at an end of the link, to be sent. -/
def acquire (b : Bench) (e : End) (name : String) : Option Loan × Bench :=
  match b.link with
  | none => (none, b)
  | some l => match l.acquire e with
    | (none, _) => (none, b)
    | (some f, l) =>
      let x := Loan.send { frame := f } (.outbound e)
      (some x, { b with link := some l }.put name x)

/-- Takes a frame that waits at an end of the link. -/
def receive (b : Bench) (e : End) (name : String) : Option Loan × Bench :=
  match b.link with
  | none => (none, b)
  | some l => match l.receive e with
    | (none, _) => (none, b)
    | (some f, l) =>
      let x := Loan.receive f (.inbound e)
      (some x, { b with link := some l }.put name x)

/-- Gives up what is held under a name; a bare frame goes to a pool. -/
def release (b : Bench) (name : String) (i : Nat) : Bench :=
  match b.loan? name with
  | some (.frame f) => (b.without name).giveTo f (.pool i)
  | some x => (b.without name).drop x
  | none => b

/-- Gives up an end of the link. -/
def closeLink (b : Bench) : Bench := { b with link := b.link.map Link.close }

/-- Puts another loan in the place of the one under a name. -/
def replace (b : Bench) (name : String) (x : Loan) : Bench := (b.without name).put name x

end Bench

end RadioStream
