import RadioStream.Address.Basic
import RadioStream.Bytes
/-!
# Which device an address means

Two addresses mean the same device when they name the same resource or, without
a resource, agree in all pairs but those that say how a device is to be used.
`Address.fingerprint` is the byte string by which devices are told apart.
-/

namespace RadioStream.Address

/-- Keys that say how a device is used and not which device it is. -/
def usageKeys : List String := ["claimed", "skip_dram", "skip_ddc", "skip_duc"]

/-- The pairs that identify the device: the resource alone if there is one. -/
def identifyingPairs (a : Address) : List (String × String) :=
  match a.get? "resource" with
  | some resource => [("resource", resource)]
  | none => a.pairs.filter fun p => !usageKeys.contains p.1

/-- The bytes of a text and an end mark that no text contains. -/
def markedBytes (s : String) : Bytes := s.toList.flatMap String.utf8EncodeChar ++ [0xff]

/-- The identifying pairs as one byte string. -/
def fingerprint (a : Address) : Bytes :=
  a.identifyingPairs.flatMap fun p => markedBytes p.1 ++ markedBytes p.2

end RadioStream.Address
