/-!
# Cutting a transmission into packets

A transmission is cut where a packet is full, at every end of a vector, and at
its end.
-/

namespace RadioStream

/-- The samples of one packet, from `start` up to `stop`. -/
structure Piece where
  start : Nat
  stop : Nat
  /-- Whether a vector ends with it. -/
  endsVector : Bool
deriving DecidableEq, Repr

namespace Piece

/-- The first end of a vector after a position and not past the last sample. -/
def nextEnd (ends : List Nat) (count position : Nat) : Option Nat :=
  (ends.filter fun e => position < e && e ≤ count).min?

/-- The pieces from a position on, at most as many as the first argument says. -/
def cutFrom (most : Nat) (ends : List Nat) (count : Nat) : Nat → Nat → List Piece
  | 0, _ => []
  | fuel + 1, position =>
    if position < count then
      let next := nextEnd ends count position
      let stop := min (position + most) (next.getD count)
      ⟨position, stop, next == some stop⟩ :: cutFrom most ends count fuel stop
    else []

/-- The pieces of `count` samples, none larger than `most`. Each holds a sample,
so there are no more pieces than samples. -/
def cut (most : Nat) (ends : List Nat) (count : Nat) : List Piece :=
  cutFrom most ends count count 0

end Piece

end RadioStream
