import RadioStream.Packet.Header
import RadioStream.Sample
/-!
# Data packets

A data packet is a header and samples in the format of the wire.
-/

namespace RadioStream.Header

/-- Writes a packet of as many samples as the frame has room for. The header says
how long they are, whatever it said before. -/
def encodeSamples {S : Type} [HostSample S] (h : Header) (format : WireFormat) (samples : List S)
    (frame : Bytes) : Written :=
  if frame.length < size then ⟨.error (.argument (.noRoomForHeader frame.length)), frame⟩
  else
    let (bytes, body) := format.pack samples (frame.drop size)
    let h := { h with payloadLength := UInt32.ofNat bytes }
    ⟨.ok (size + bytes), h.bytes ++ body⟩

end RadioStream.Header
