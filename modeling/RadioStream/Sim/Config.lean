import RadioStream.Link.Geometry
/-!
# Simulated devices: options and discovery

The options of a simulated device come from its address, as do the number of
such devices that discovery finds.
-/

namespace RadioStream.Sim

/-- The options of a simulated device. -/
structure Config where
  /-- Ticks, and samples, a second. -/
  tickRate : Float := 1e6
  /-- Channels in each direction. -/
  channels : Nat := 2
  /-- Samples in a receive packet. -/
  packetSamples : Nat := 200
  /-- Milliseconds that a burst may stall before it is an underflow. -/
  underflowMs : Nat := 50
  /-- The frames of the host's end of each link. -/
  geometry : Geometry := {}

/-- Reads the options; absent keys keep their defaults. -/
def Config.ofAddress (a : Address) : Except Error Config := do
  let default : Config := {}
  let tickRate ← a.floatD "tick_rate" default.tickRate
  let channels ← a.wordD "num_channels" default.channels
  let packetSamples ← a.wordD "spp" default.packetSamples
  let underflowMs ← a.wordD "underflow_timeout_ms" default.underflowMs
  let geometry ← default.geometry.withArguments a
  if tickRate.isNaN || tickRate ≤ 0 then throw (.argument (.tickRate tickRate))
  if channels = 0 || packetSamples = 0 then throw (.argument .emptyDevice)
  return { tickRate, channels, packetSamples, underflowMs, geometry }

/-- The type of simulated devices. -/
def typeName : String := "sim"

/-- The address of the `n`th simulated device. -/
def address (n : Nat) : Address :=
  .ofPairs [("type", typeName), ("serial", s!"sim{n}"), ("name", s!"sim-rf{n}")]

/-- Whether an address carries the hint's value of a key, if the hint has one. -/
def agrees (hint a : Address) (key : String) : Bool :=
  match hint.get? key with
  | none => true
  | some value => a.get? key == some value

/-- The simulated devices that a hint describes; none if it names another
type. -/
def find (hint : Address) : Except Error (List Address) := do
  if (hint.get? "type").any (· != typeName) then return []
  let count ← hint.wordD "sims" 1
  return ((List.range count).map address).filter fun a =>
    ["serial", "name"].all (agrees hint a)

end RadioStream.Sim
