import RadioStream.Error
/-!
# What a streamer is asked for

The sample format, the channels of the device in the order of the streamer, and
further arguments.
-/

namespace RadioStream

/-- Reads the name of a sample format. -/
def WireFormat.ofName (name : String) : Except Error WireFormat :=
  match WireFormat.ofName? name with
  | some f => .ok f
  | none => .error (.argument (.unknownFormat name))

/-- Arguments of a new streamer. -/
structure StreamArgs where
  format : WireFormat := .sc16
  channels : List Nat := []
  args : Address := {}

/-- The channels to stream; channel zero if none is named. -/
def StreamArgs.selected (a : StreamArgs) : List Nat :=
  if a.channels.isEmpty then [0] else a.channels

end RadioStream
