import RadioStream.Packet.Header
import RadioStream.Stream.Command
import RadioStream.Stream.Metadata
/-!
# Control packets

The payloads of the packets that carry no samples: stream commands of twelve
bytes, receive conditions of four and transmit events of twenty-four. Each has
one length only, and a reserved byte of a command is not looked at.
-/

namespace RadioStream

/-! ## Stream commands -/

namespace StreamCommand

variable {α : Type} [Scalar α]

/-- The header of a command packet; a command put off has its tick in it. -/
def header (c : StreamCommand α) (rate : α) : Header :=
  Header.stamped { kind := .command } (if c.immediate then none else some (c.time.startTick rate))

/-- Mode, whether to start at once, two reserved bytes, number of samples. -/
def payload (c : StreamCommand α) : Bytes :=
  [c.mode.wire, if c.immediate then 1 else 0, 0, 0] ++ bigEndian 8 c.samples.toNat

/-- Writes a command packet at the start of a frame. -/
def encode (c : StreamCommand α) (rate : α) (frame : Bytes) : Written :=
  (c.header rate).encodePacket c.payload frame

/-- Reads a command. Without a timestamp it is to be carried out at once. -/
def decode (h : Header) (payload : Bytes) (rate : α) : Except Error (StreamCommand α) :=
  match payload with
  | mode :: now :: _ :: _ :: samples =>
    if samples.length ≠ 8 then .error (.packet (.commandLength payload.length))
    else match StreamMode.ofWire? mode with
      | none => .error (.packet (.unknownMode mode))
      | some mode => .ok
        { mode, samples := UInt64.ofNat (ofBigEndian samples)
          immediate := now != 0 || !h.hasTime
          time := if h.hasTime then Instant.ofCounter h.timestamp rate else Instant.zero }
  | _ => .error (.packet (.commandLength payload.length))

end StreamCommand

/-! ## Receive conditions -/

namespace RxCode

/-- Writes a status packet at the start of a frame. -/
def encode (c : RxCode) (timestamp : Option UInt64) (frame : Bytes) : Written :=
  (Header.stamped { kind := .status } timestamp).encodePacket (bigEndian 4 c.wire.toNat) frame

/-- Reads a condition. -/
def decode (payload : Bytes) : Except Error RxCode :=
  if payload.length ≠ 4 then .error (.packet (.statusLength payload.length))
  else
    let word := UInt32.ofNat (ofBigEndian payload)
    match ofWire? word with
    | .some c => .ok c
    | .none => .error (.packet (.unknownStatus word))

end RxCode

/-! ## Transmit events -/

/-- An event as it travels, with the channel of the device. -/
structure EventReport where
  channel : UInt32
  code : EventCode
  words : Words
deriving DecidableEq, Repr, Inhabited

namespace EventReport

/-- Six words: channel, code and the four of the event. -/
def payload (e : EventReport) : Bytes :=
  [e.channel, e.code.wire, e.words.first, e.words.second, e.words.third, e.words.fourth].flatMap
    fun w => bigEndian 4 w.toNat

/-- Writes an event packet at the start of a frame. -/
def encode (e : EventReport) (timestamp : Option UInt64) (frame : Bytes) : Written :=
  (Header.stamped { kind := .event } timestamp).encodePacket e.payload frame

/-- The word that begins at a position. -/
def wordAt (payload : Bytes) (position : Nat) : UInt32 :=
  UInt32.ofNat (ofBigEndian ((payload.drop position).take 4))

/-- Reads an event. -/
def decode (payload : Bytes) : Except Error EventReport :=
  if payload.length ≠ 24 then .error (.packet (.eventLength payload.length))
  else
    let word := wordAt payload 4
    match EventCode.ofWire? word with
    | some code => .ok
      { channel := wordAt payload 0, code
        words := ⟨wordAt payload 8, wordAt payload 12, wordAt payload 16, wordAt payload 20⟩ }
    | none => .error (.packet (.unknownEvent word))

end EventReport

end RadioStream
