/-!
# Pauses

A chain of the device works in short steps and says before each what it waits
for. Every wait ends after a while, so that the chain sees what else happened.
Times are in nanoseconds.
-/

namespace RadioStream.Sim

/-- What is waited for before the next step. -/
inductive Pause where
  /-- Nothing. -/
  | none
  /-- For some time to pass. -/
  | sleep (time : Nat)
  /-- For a frame from the host. -/
  | frame (most : Nat)
  /-- For an idle frame to send. -/
  | room (most : Nat)
deriving DecidableEq, Repr, Inhabited

/-- How long chains wait at most. -/
def poll : Nat := 2000000

end RadioStream.Sim
