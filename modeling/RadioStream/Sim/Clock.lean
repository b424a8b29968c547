import RadioStream.Decimal.Binary64
/-!
# The device clock

A clock counts ticks at a rate from the moment the device is made. Real time is
in whole nanoseconds.
-/

namespace RadioStream.Sim

/-- Seconds in nanoseconds, to the nearest, a half to the even neighbour.
Negative times, times of `2 ^ 64` seconds and more and what is not a number have
no duration. -/
def nanoseconds? (seconds : Float) : Option Nat :=
  match Decimal.Binary.ofBits seconds.toBits with
  | .finite p =>
    if p.negative && p.mantissa != 0 then none
    else
      let (num, den) := (p.mantissa * Nat.pow 2 p.exponent.toNat, Nat.pow 2 (-p.exponent).toNat)
      if num / den < UInt64.size then some (Decimal.roundHalfEven (num * Nat.pow 10 9) den) else none
  | _ => none

/-- The duration of a number of ticks, in nanoseconds. -/
def ticksDuration? (rate : Float) (ticks : UInt64) : Option Nat :=
  nanoseconds? (ticks.toFloat / rate)

/-- The tick that a clock shows some nanoseconds after its start; it stops at the
largest tick. -/
def tickAt (rate : Float) (elapsed : Nat) : UInt64 :=
  let whole := (UInt64.ofNat (elapsed / Nat.pow 10 9)).toFloat
  let part := (UInt64.ofNat (elapsed % Nat.pow 10 9)).toFloat / 1e9
  ((whole + part) * rate).toUInt64

/-- Nanoseconds from one moment until a clock shows a tick; none are left once it
does. -/
def timeLeft? (rate : Float) (elapsed : Nat) (tick : UInt64) : Option Nat :=
  (ticksDuration? rate tick).map (· - elapsed)

/-- What the clock tells at one moment. -/
structure Reading where
  /-- Nanoseconds since the clock was started. -/
  elapsed : Nat
  tick : Nat
  /-- Nanoseconds until a tick, where they can be told. -/
  left? : Nat → Option Nat

/-- A clock read some nanoseconds after its start. -/
def Reading.ofElapsed (rate : Float) (elapsed : Nat) : Reading where
  elapsed
  tick := (tickAt rate elapsed).toNat
  left? tick := timeLeft? rate elapsed (UInt64.ofNat tick)

end RadioStream.Sim
