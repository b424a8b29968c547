import RadioStream.Receiver.Basic
import RadioStream.Sim.Config
import RadioStream.Sim.Machine
import RadioStream.Stream.Arguments
import RadioStream.Transmitter.Basic
/-!
# Simulated devices

A simulated device opens streams on its channels. Each channel of a stream gets a
circuit of its own. Words injected for a channel go to the stream that was opened
last on it.
-/

namespace RadioStream.Sim

/-- A simulated device. -/
structure Device where
  /-- The address it was made from. -/
  address : Address
  config : Config
  machine : Machine
  /-- The circuit that raises injected words, by channel. -/
  injections : List (Nat × Nat) := []

/-- A receiver and the circuits of its channels. -/
structure ReceiveStream where
  receiver : Receiver
  circuits : List Nat

/-- A transmitter, the circuits of its channels, and the listener to their
events. -/
structure TransmitStream where
  transmitter : Transmitter
  circuits : List Nat
  listener : Nat

/-- What a stream is made with: its channels, the geometry of its links, and the
samples in a packet. -/
structure Setup where
  channels : List Nat
  geometry : Geometry
  packetSamples : Nat

namespace Device

/-- How long it takes until a device that is made can be used. -/
def startTime : Nat := 20000

/-- Words that wait to be raised on a channel, before the oldest gives way. -/
def injectionDepth : Nat := 16

/-- Makes the device of an address. -/
def new (address : Address) : Except Error Device := do
  let config ← Config.ofAddress address
  return { address, config, machine := .new config.tickRate startTime }

/-- The time of the device. -/
def now (d : Device) : Instant :=
  .ofCounter (tickAt d.config.tickRate d.machine.now) d.config.tickRate

/-! ## Streams -/

/-- What the arguments of a stream ask for. They may name their own geometry and
packet size. -/
def setup (d : Device) (a : StreamArgs) : Except Error Setup := do
  if let some bad := a.selected.find? (d.config.channels ≤ ·) then
    throw (.argument (.channelOutOfRange bad d.config.channels))
  let geometry ← d.config.geometry.withArguments a.args
  let packetSamples ← a.args.wordD "spp" d.config.packetSamples
  return { channels := a.selected, geometry, packetSamples }

/-- A link for each channel. -/
def Setup.links (s : Setup) : Except Error (List Link) :=
  s.channels.mapM fun _ => Link.new s.geometry

/-- Opens a receive stream. -/
def openReceive (d : Device) (a : StreamArgs) : Except Error (ReceiveStream × Device) := do
  let s ← d.setup a
  let links ← Setup.links s
  let receiver ← Receiver.new (links.map fun _ => s.geometry.recvFrameSize) a.format
    d.config.tickRate s.packetSamples
  let chain : ReceiveChain :=
    { format := a.format, rate := d.config.tickRate, packetSamples := s.packetSamples }
  let (circuits, machine) := links.foldl (fun (circuits, machine) link =>
    let (i, machine) := machine.addCircuit link (.receive chain)
    (circuits ++ [i], machine)) ([], d.machine)
  return ({ receiver, circuits }, { d with machine })

/-- The transmit chain of a channel. -/
def transmitChain (d : Device) (format : WireFormat) (channel : Nat) : TransmitChain :=
  { channel, format, stall := d.config.underflowMs * Nat.pow 10 6
    injections := Queue.new injectionDepth }

/-- Starts a transmit chain on a channel, which takes over the words injected
there. -/
def startTransmit (format : WireFormat) (d : Device) (channel : Nat) (link : Link) :
    Nat × Device :=
  let (i, machine) := d.machine.addCircuit link (.transmit (d.transmitChain format channel))
  (i, { d with machine, injections := (channel, i) :: d.injections })

/-- Opens a transmit stream. Its chains are started before its transmitter is
made; if that fails they end, but have taken over their channels. -/
def openTransmit (d : Device) (a : StreamArgs) : Except Error TransmitStream × Device :=
  match (do let s ← d.setup a; return (s, ← Setup.links s)) with
  | .error e => (.error e, d)
  | .ok (s, links) =>
    let (circuits, d) := (s.channels.zip links).foldl (fun (circuits, d) (channel, link) =>
      let (i, d) := startTransmit a.format d channel link
      (circuits ++ [i], d)) (([] : List Nat), d)
    match Transmitter.new (links.map fun _ => s.geometry.sendFrameSize) a.format
        d.config.tickRate s.packetSamples with
    | .ok transmitter =>
      let (listener, machine) := d.machine.addListener circuits
      (.ok { transmitter, circuits, listener }, { d with machine })
    | .error e => (.error e, { d with machine := circuits.foldl Machine.closeCircuit d.machine })

/-- Gives up a receive stream. -/
def closeReceive (d : Device) (s : ReceiveStream) : Device :=
  { d with machine := s.circuits.foldl Machine.closeCircuit d.machine }

/-- Gives up a transmit stream. -/
def closeTransmit (d : Device) (s : TransmitStream) : Device :=
  { d with machine := (s.circuits.foldl Machine.closeCircuit d.machine).closeListener s.listener }

/-! ## Injected words -/

/-- The circuit that raises the words injected for a channel. -/
def injectionCircuit? (d : Device) (channel : Nat) : Option Nat :=
  (d.injections.lookup channel).filter d.machine.isRunning

/-- Has the transmit stream of a channel raise an event with some words. -/
def inject (d : Device) (channel : Nat) (words : Words) : Except Error Device :=
  match d.injectionCircuit? channel with
  | none => .error (.argument (.noTransmitStream channel))
  | some i =>
    .ok { d with machine := d.machine.changeInjections i fun q => (q.pushForce words).2 }

end Device

end RadioStream.Sim
