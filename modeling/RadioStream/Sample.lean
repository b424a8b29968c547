import RadioStream.Bytes
/-!
# Samples

A sample is a pair of an in-phase and a quadrature part. The wire carries pairs
of sixteen-bit integers, whole (`sc16`) or their high bytes only (`sc8`); the
host works with such pairs or with pairs of single-precision numbers whose full
scale is one. `WireFormat.pack` and `WireFormat.unpack` convert between the two.
-/

namespace RadioStream

/-- An in-phase and a quadrature part. -/
structure Iq (α : Type) where
  re : α
  im : α
deriving DecidableEq, Repr, Inhabited

/-- What the host can hold samples in. -/
class HostSample (σ : Type) where
  /-- The host sample for a sample in sixteen-bit precision. -/
  ofRaw : Iq Int16 → σ
  /-- The sample in sixteen-bit precision. -/
  toRaw : σ → Iq Int16

instance : HostSample (Iq Int16) := ⟨id, id⟩

/-- The integer that stands for a full-scale real part. -/
def fullScale : Float32 := 32767

/-- Limits a part to full scale and rounds it to an integer, a half away from
zero. Not-a-number becomes zero. -/
def quantize (x : Float32) : Int16 :=
  let limited := if x < -1 then -1 else if 1 < x then 1 else x
  (limited * fullScale).round.toInt16

instance : HostSample (Iq Float32) where
  ofRaw x := ⟨x.re.toFloat32 / fullScale, x.im.toFloat32 / fullScale⟩
  toRaw x := ⟨quantize x.re, quantize x.im⟩

/-- The sample formats of the wire. -/
inductive WireFormat where
  | sc16
  | sc8
deriving DecidableEq, Repr, Inhabited

namespace WireFormat

/-- The name of the format. -/
def name : WireFormat → String
  | sc16 => "sc16"
  | sc8 => "sc8"

/-- The format of a name. -/
def ofName? : String → Option WireFormat
  | "sc16" => some sc16
  | "sc8" => some sc8
  | _ => none

/-- Bytes that one sample takes on the wire. -/
def sampleBytes : WireFormat → Nat
  | sc16 => 4
  | sc8 => 2

/-- One part of a sample on the wire. -/
def partBytes (f : WireFormat) (x : Int16) : Bytes :=
  match f with
  | sc16 => bigEndian 2 x.toUInt16.toNat
  | sc8 => bigEndian 1 (x.toUInt16.toNat / 256)

/-- One sample on the wire, in-phase part first. -/
def encode (f : WireFormat) (x : Iq Int16) : Bytes := f.partBytes x.re ++ f.partBytes x.im

/-- The part of a sample that two bytes hold. -/
def ofTwo (high low : UInt8) : Int16 := (UInt16.ofNat (ofBigEndian [high, low])).toInt16

/-- The samples of a byte string; bytes past the last whole sample are left
out. -/
def decode : WireFormat → Bytes → List (Iq Int16)
  | sc16, a :: b :: c :: d :: rest => ⟨ofTwo a b, ofTwo c d⟩ :: decode sc16 rest
  | sc8, a :: b :: rest => ⟨ofTwo a 0, ofTwo b 0⟩ :: decode sc8 rest
  | _, _ => []

/-- Writes as many samples as fit over the start of a buffer. Gives the number
of bytes written and the buffer. -/
def pack {σ : Type} [HostSample σ] (f : WireFormat) (samples : List σ) (buffer : Bytes) :
    Nat × Bytes :=
  let count := min samples.length (buffer.length / f.sampleBytes)
  let bytes := (samples.take count).flatMap fun x => f.encode (HostSample.toRaw x)
  (count * f.sampleBytes, splice buffer 0 bytes)

/-- Writes as many samples of a byte string as fit over the start of a buffer.
Gives the number of samples written and the buffer. -/
def unpack {σ : Type} [HostSample σ] (f : WireFormat) (bytes : Bytes) (buffer : List σ) :
    Nat × List σ :=
  let samples := ((f.decode bytes).take buffer.length).map HostSample.ofRaw
  (samples.length, splice buffer 0 samples)

/-- A sample takes the same number of bytes whatever its value. -/
@[simp] theorem length_encode (f : WireFormat) (x : Iq Int16) :
    (f.encode x).length = f.sampleBytes := by
  cases f <;> rfl

theorem sampleBytes_pos (f : WireFormat) : 0 < f.sampleBytes := by
  cases f <;> decide

end WireFormat

end RadioStream
