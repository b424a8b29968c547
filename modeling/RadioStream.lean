import RadioStream.Address.Basic
import RadioStream.Address.Fingerprint
import RadioStream.Address.Value
import RadioStream.Bytes
import RadioStream.Decimal.Binary64
import RadioStream.Decimal.Fixed
import RadioStream.Decimal.Reader
import RadioStream.Decimal.Shortest
import RadioStream.Defaults
import RadioStream.Error
import RadioStream.Link.Basic
import RadioStream.Link.Bench
import RadioStream.Link.Frame
import RadioStream.Link.Geometry
import RadioStream.Link.Pool
import RadioStream.Link.Terminal
import RadioStream.Packet.Control
import RadioStream.Packet.Data
import RadioStream.Packet.Header
import RadioStream.Proofs.Packet
import RadioStream.Proofs.Sample
import RadioStream.Queue
import RadioStream.Receiver.Basic
import RadioStream.Receiver.Channel
import RadioStream.Receiver.Condition
import RadioStream.Registry
import RadioStream.Sample
import RadioStream.Sim.Clock
import RadioStream.Sim.Config
import RadioStream.Sim.Device
import RadioStream.Sim.Family
import RadioStream.Sim.Machine
import RadioStream.Sim.Pause
import RadioStream.Sim.Ramp
import RadioStream.Sim.ReceiveChain
import RadioStream.Sim.TransmitChain
import RadioStream.Stream.Arguments
import RadioStream.Stream.Command
import RadioStream.Stream.Metadata
import RadioStream.Text.Blank
import RadioStream.Text.Quoted
import RadioStream.Text.Token
import RadioStream.Text.Unwritable
import RadioStream.Time.Instant
import RadioStream.Time.Scalar
import RadioStream.Toml.Document
import RadioStream.Toml.Layout
import RadioStream.Toml.Moment
import RadioStream.Toml.Node
import RadioStream.Toml.Number
import RadioStream.Toml.Quoted
import RadioStream.Toml.Reader
import RadioStream.Toml.Value
import RadioStream.Transmitter.Basic
import RadioStream.Transmitter.Events
import RadioStream.Transmitter.Pieces
import RadioStream.Proofs.Receiver.Track
import RadioStream.Proofs.Receiver.Step
import RadioStream.Proofs.Receiver.Call
import RadioStream.Proofs.Receiver.Session
import RadioStream.Proofs.Receiver.Following
import RadioStream.Proofs.Receiver.Lossless
import RadioStream.Proofs.Receiver.Contiguous
import RadioStream.Proofs.Receiver.Conditions
import RadioStream.Proofs.Receiver.EndOfBurst
import RadioStream.Proofs.Link
import RadioStream.Proofs.Custody
import RadioStream.Proofs.Conservation
import RadioStream.Proofs.Transmitter.Pieces
import RadioStream.Proofs.Transmitter.Send
import RadioStream.Proofs.Receiver.Lockstep
import RadioStream.Proofs.Receiver.Complete
import RadioStream.Proofs.Loopback.Plan
import RadioStream.Proofs.Loopback.Session
import RadioStream.Proofs.Loopback.Identity
import RadioStream.Proofs.Receiver.Trace
import RadioStream.Proofs.Receiver.Journal
import RadioStream.Proofs.Sim.Station
import RadioStream.Proofs.Sim.Moves
import RadioStream.Proofs.Sim.Run
import RadioStream.Proofs.Sim.Integrity
import RadioStream.Proofs.Sim.Portions
import RadioStream.Proofs.Sim.Carrying
import RadioStream.Proofs.Sim.Chained
import RadioStream.Proofs.Sim.Endings
import RadioStream.Proofs.Sim.Downlink
import RadioStream.Proofs.Sim.Agreement
import RadioStream.Proofs.Sim.Mirror
import RadioStream.Proofs.Sim.Uplink
import RadioStream.Proofs.Lists
import RadioStream.Proofs.Registry.Sessions
import RadioStream.Proofs.Registry.Office
import RadioStream.Proofs.Registry.Discovery
import RadioStream.Proofs.Address
import RadioStream.Proofs.Text.ByteOrder
import RadioStream.Proofs.Toml
import RadioStream.Proofs.Defaults
import RadioStream.Proofs.Registry.Precedence
import RadioStream.Proofs.Sim.Refusal
import RadioStream.Proofs.RoundTrip
import RadioStream.Proofs.Ticks
import RadioStream.Proofs.Queue
import RadioStream.Proofs.Transmitter.Events
import RadioStream.Proofs.Reuse
import RadioStream.Proofs.Sim.Reuse
import RadioStream.Proofs.Sim.Story
import RadioStream.Proofs.Sim.Announcement
import RadioStream.Proofs.Sim.Framing
import RadioStream.Proofs.Capacity
import RadioStream.Proofs.Sim.Room
import RadioStream.Proofs.Receiver.Fragments
import RadioStream.Proofs.Receiver.Poll
import RadioStream.Proofs.Receiver.Silence
import RadioStream.Proofs.Receiver.Recital
import RadioStream.Proofs.Sim.Grid
import RadioStream.Proofs.Sim.Hearing
import RadioStream.Proofs.Sim.Delivery
import RadioStream.Proofs.Receiver.Realignment
import RadioStream.Proofs.Receiver.Bounds
import RadioStream.Proofs.Transmitter.Exact
import RadioStream.Proofs.Transmitter.Shortage
import RadioStream.Proofs.Acceptance
import RadioStream.Proofs.Address.Text
import RadioStream.Proofs.Address.Fingerprint
import RadioStream.Proofs.Receiver.Command
import RadioStream.Proofs.Packing
import RadioStream.Proofs.Receiver.Footprint
import RadioStream.Proofs.Sim.Notes
import RadioStream.Proofs.Sim.Reckoning
