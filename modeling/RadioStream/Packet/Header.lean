import RadioStream.Bytes
import RadioStream.Error
/-!
# Packets

Every frame carries one packet, a header of sixteen bytes and a payload:

    byte 0       kind
    byte 1       flags: time valid, start of burst, end of burst, end of vector
    bytes 2-3    sequence number
    bytes 4-7    payload length in bytes
    bytes 8-15   timestamp in ticks

Numbers are big-endian. Sequence numbers count the data packets of a channel.
Writing a packet leaves the rest of the frame as it is; a packet that does not
fit leaves all of it.
-/

namespace RadioStream

/-- What a packet carries. -/
inductive PacketKind where
  /-- Samples. -/
  | data
  /-- A stream command, from the host. -/
  | command
  /-- A receive condition, from the device. -/
  | status
  /-- A transmit event, from the device. -/
  | event
deriving DecidableEq, Repr, Inhabited

namespace PacketKind

/-- The first byte of a packet. -/
def wire : PacketKind → UInt8
  | data => 1
  | command => 2
  | status => 3
  | event => 4

/-- The kind that a first byte stands for. -/
def ofWire? : UInt8 → Option PacketKind
  | 1 => some data
  | 2 => some command
  | 3 => some status
  | 4 => some event
  | _ => none

theorem ofWire?_wire (k : PacketKind) : ofWire? k.wire = some k := by
  cases k <;> rfl

end PacketKind

/-- A packet header. -/
structure Header where
  kind : PacketKind := .data
  hasTime : Bool := false
  startOfBurst : Bool := false
  endOfBurst : Bool := false
  endOfVector : Bool := false
  sequence : UInt16 := 0
  payloadLength : UInt32 := 0
  timestamp : UInt64 := 0
deriving DecidableEq, Repr, Inhabited

/-- The result of writing into a frame: the length written or why nothing was,
and the frame afterwards. -/
structure Written where
  outcome : Except Error Nat
  frame : Bytes

namespace Header

/-- Bytes that a header takes. -/
def size : Nat := 16

/-- The header with a timestamp, if there is one to give it. -/
def stamped (h : Header) (timestamp : Option UInt64) : Header :=
  match timestamp with
  | none => h
  | some t => { h with hasTime := true, timestamp := t }

/-- The flags, one bit each. -/
def flags (h : Header) : UInt8 :=
  UInt8.ofNat (h.hasTime.toNat + 2 * h.startOfBurst.toNat + 4 * h.endOfBurst.toNat +
    8 * h.endOfVector.toNat)

/-- The sixteen bytes of a header. -/
def bytes (h : Header) : Bytes :=
  h.kind.wire :: h.flags :: (bigEndian 2 h.sequence.toNat ++ bigEndian 4 h.payloadLength.toNat ++
    bigEndian 8 h.timestamp.toNat)

@[simp] theorem length_bytes (h : Header) : h.bytes.length = size := by
  simp [bytes, size]

/-- Writes a header at the start of a frame. -/
def encode (h : Header) (frame : Bytes) : Written :=
  if frame.length < size then ⟨.error (.argument (.noRoomForHeader frame.length)), frame⟩
  else ⟨.ok size, splice frame 0 h.bytes⟩

/-- Writes a packet at the start of a frame. The header says how long the payload
is, whatever it said before. -/
def encodePacket (h : Header) (payload frame : Bytes) : Written :=
  let total := size + payload.length
  if frame.length < total then ⟨.error (.argument (.noRoomForPacket total frame.length)), frame⟩
  else
    let h := { h with payloadLength := UInt32.ofNat payload.length }
    ⟨.ok total, splice frame 0 (h.bytes ++ payload)⟩

/-- Reads the header of a packet and its payload; bytes past the payload are left
out. -/
def decode : Bytes → Except Error (Header × Bytes)
  | kind :: flags :: rest =>
    if rest.length < 14 then .error (.packet (.shortFrame (rest.length + 2)))
    else match PacketKind.ofWire? kind with
      | none => .error (.packet (.unknownKind kind))
      | some kind =>
        let length := ofBigEndian ((rest.drop 2).take 4)
        let body := rest.drop 14
        if body.length < length then
          .error (.packet (.payloadPastEnd length (body.length + size)))
        else
          let flag (i : Nat) := flags.toNat.testBit i
          .ok ({ kind, hasTime := flag 0, startOfBurst := flag 1, endOfBurst := flag 2
                 endOfVector := flag 3
                 sequence := UInt16.ofNat (ofBigEndian (rest.take 2))
                 payloadLength := UInt32.ofNat length
                 timestamp := UInt64.ofNat (ofBigEndian ((rest.drop 6).take 8)) },
               body.take length)
  | short => .error (.packet (.shortFrame short.length))

end Header

end RadioStream
