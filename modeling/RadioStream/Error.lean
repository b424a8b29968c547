import RadioStream.Address.Basic
import RadioStream.Decimal.Shortest
import RadioStream.Sample
import RadioStream.Text.Quoted
/-!
# Errors

What can go wrong, by cause, and the message of each cause. Only conditions
without a partial result are errors: a wait that ends without a frame is a
missing value, and what happens on a stream travels in its metadata.
-/

namespace RadioStream

/-- An argument that cannot be used. -/
inductive ArgumentFault where
  | unreadableValue (value key : String)
  | emptyPool (frameSize frames : Nat)
  | noRoomForHeader (frame : Nat)
  | noRoomForPacket (packet frame : Nat)
  | unknownFormat (name : String)
  | receiveWithoutChannel
  | transmitWithoutChannel
  | noSamplesPerPacket
  | receiveFrameTooSmall (samples : Nat) (format : WireFormat) (needed frame : Nat)
  | sendFrameTooSmall (frame : Nat) (format : WireFormat)
  | bufferCount (expected given : Nat)
  | shortBuffer (length needed : Nat)
  | tickRate (rate : Float)
  | emptyDevice
  | channelOutOfRange (channel channels : Nat)
  | noTransmitStream (channel : Nat)
deriving Repr

/-- A frame that is not a packet, or a packet with an unusable payload. -/
inductive PacketFault where
  | shortFrame (length : Nat)
  | unknownKind (byte : UInt8)
  | payloadPastEnd (payload frame : Nat)
  | commandLength (length : Nat)
  | unknownMode (byte : UInt8)
  | statusLength (length : Nat)
  | unknownStatus (word : UInt32)
  | eventLength (length : Nat)
  | unknownEvent (word : UInt32)
deriving Repr

/-- Device defaults that cannot be used. -/
inductive DefaultsFault where
  | unnamedSection (name : String)
  | notScalar (section_ key found : String)
deriving Repr

/-- Everything that fails. -/
inductive Error where
  | noDevice (hint : Address)
  | noSuchDevice (index : Nat) (hint : Address)
  | argument (fault : ArgumentFault)
  | packet (fault : PacketFault)
  | defaults (fault : DefaultsFault)
  | document
  | unreadableFile
  | discovery (reason : String)
  | crashed
  | noCommandFrame (channel : Nat)
  | failed (reason : String)

/-- The words for an argument that cannot be used. -/
def ArgumentFault.message : ArgumentFault → String
  | unreadableValue value key => s!"cannot parse value {Text.quote value} for key {key}"
  | emptyPool frameSize frames =>
    s!"buffer pool needs non-zero frames (frame_size={frameSize}, num_frames={frames})"
  | noRoomForHeader frame => s!"frame of {frame} bytes cannot hold a packet header"
  | noRoomForPacket packet frame => s!"packet of {packet} bytes does not fit a {frame} byte frame"
  | unknownFormat name =>
    s!"unsupported wire format {Text.quote name} (expected sc16 or sc8)"
  | receiveWithoutChannel => "a receive streamer needs at least one channel"
  | transmitWithoutChannel => "a transmit streamer needs at least one channel"
  | noSamplesPerPacket => "spp must be positive"
  | receiveFrameTooSmall samples format needed frame =>
    s!"{samples} samples of {format.name} need {needed} byte frames, " ++
      s!"receive frames are {frame} bytes"
  | sendFrameTooSmall frame format =>
    s!"send frames of {frame} bytes cannot carry {format.name} samples"
  | bufferCount expected given => s!"expected {expected} channel buffers, got {given}"
  | shortBuffer length needed =>
    s!"buffer of {length} samples is shorter than nsamps_per_buff {needed}"
  | tickRate rate => s!"tick_rate must be positive, got {Decimal.text rate}"
  | emptyDevice => "num_channels and spp must be positive"
  | channelOutOfRange channel channels =>
    s!"channel {channel} out of range, device has {channels}"
  | noTransmitStream channel => s!"no transmit stream on channel {channel}"

/-- The words for a frame that is not a usable packet. -/
def PacketFault.message : PacketFault → String
  | shortFrame length => s!"frame of {length} bytes is shorter than the header"
  | unknownKind byte => s!"unknown packet type {Text.hexByte byte}"
  | payloadPastEnd payload frame => s!"payload length {payload} exceeds frame of {frame} bytes"
  | commandLength length => s!"stream command payload of {length} bytes"
  | unknownMode byte => s!"unknown stream mode {Text.hexByte byte}"
  | statusLength length => s!"status payload of {length} bytes"
  | unknownStatus word => s!"unknown status code {Text.hexMarked word.toNat}"
  | eventLength length => s!"event payload of {length} bytes"
  | unknownEvent word => s!"unknown event code {Text.hexMarked word.toNat}"

/-- The words for device defaults that cannot be used. -/
def DefaultsFault.message : DefaultsFault → String
  | unnamedSection name => s!"section [{name}] must be named key=value (e.g. [\"type=sim\"])"
  | notScalar section_ key found => s!"[{section_}] {key}: expected a scalar, found {found}"

/-- What is shown to the caller. -/
def Error.message : Error → String
  | noDevice hint => "No devices found for ----->\n" ++ hint.listing
  | noSuchDevice index hint => s!"No device at index {index} for ----->\n" ++ hint.listing
  | argument fault => "Invalid argument: " ++ fault.message
  | packet fault => "Invalid packet: " ++ fault.message
  | defaults fault => "Configuration error: " ++ fault.message
  | document => "TOML parse error"
  | unreadableFile => "I/O error"
  | discovery reason => "Discovery error: " ++ reason
  | crashed => "Thread panicked"
  | noCommandFrame channel => s!"no send frame for a stream command on channel {channel}"
  | failed reason => reason

end RadioStream
