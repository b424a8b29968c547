import Mathlib.Data.List.Induction
import RadioStream.Packet.Data
import RadioStream.Proofs.Sample
import RadioStream.Receiver.Channel
/-!
# The data packets of a link

`DataPacket.ofFrame?` reads the data packet of a frame, header and samples at
once. A channel reads the header when the frame comes in and the samples later,
piece by piece; `Held.Of` says that it holds a certain packet, and `Held.Of.unread`
that what it has still to hand out are the samples of that packet past its offset.
-/

namespace RadioStream

/-- A data packet with its samples. -/
structure DataPacket where
  header : Header
  samples : List (Iq Int16)
deriving DecidableEq

/-- What a data packet tells without the values of its samples. -/
structure Outline where
  header : Header
  count : Nat
deriving DecidableEq

namespace DataPacket

def outline (p : DataPacket) : Outline := ⟨p.header, p.samples.length⟩

/-- The data packet that a frame holds, if it holds one and the samples are
whole. -/
def ofFrame? (format : WireFormat) (frame : Bytes) : Option DataPacket :=
  match Header.decode frame with
  | .ok (h, payload) =>
    if h.kind = .data ∧ payload.length % format.sampleBytes = 0 then some ⟨h, format.decode payload⟩
    else none
  | .error _ => none

/-- A data packet on the wire. The header says how long the samples are, whatever
it said before. -/
def bytes (format : WireFormat) (h : Header) (xs : List (Iq Int16)) : Bytes :=
  { h with payloadLength := UInt32.ofNat (xs.length * format.sampleBytes) }.bytes ++ xs.flatMap format.encode

/-- The tick of the first sample. -/
def start (p : DataPacket) : Nat := p.header.timestamp.toNat

/-- The tick after the last sample. -/
def stop (p : DataPacket) : Nat := p.start + p.samples.length

end DataPacket

/-- The data packets among some frames. -/
def packetsIn (format : WireFormat) (frames : List Bytes) : List DataPacket :=
  frames.filterMap (DataPacket.ofFrame? format)

/-- The samples of some packets, one packet after the other. -/
def samplesOf (ps : List DataPacket) : List (Iq Int16) := ps.flatMap (·.samples)

@[simp] theorem packetsIn_append (format : WireFormat) (fs gs : List Bytes) :
    packetsIn format (fs ++ gs) = packetsIn format fs ++ packetsIn format gs :=
  List.filterMap_append

@[simp] theorem samplesOf_append (ps qs : List DataPacket) :
    samplesOf (ps ++ qs) = samplesOf ps ++ samplesOf qs :=
  List.flatMap_append

@[simp] theorem samplesOf_singleton (p : DataPacket) : samplesOf [p] = p.samples := by
  simp [samplesOf]

/-! ## Reading a header -/

/-- Reading what was written gives the number modulo the width. -/
theorem ofBigEndian_bigEndian (k n : Nat) : ofBigEndian (bigEndian k n) = n % 256 ^ k := by
  induction k generalizing n with
  | zero => simp [bigEndian, ofBigEndian, Nat.mod_one]
  | succ k ih =>
    rw [bigEndian, ofBigEndian_append_singleton, ih, UInt8.toNat_ofNat',
      show 256 ^ (k + 1) = 256 * 256 ^ k from Nat.pow_succ', Nat.mod_mul]
    omega

theorem ofBigEndian_lt (bs : Bytes) : ofBigEndian bs < 256 ^ bs.length := by
  induction bs using List.reverseRecOn with
  | nil => decide
  | append_singleton bs b ih =>
    have hb := UInt8.toNat_lt b
    rw [ofBigEndian_append_singleton, List.length_append, List.length_singleton, Nat.pow_succ]
    omega

/-- A payload is as long as its header says, and lies behind the header. -/
theorem Header.payload_of_decode {bs payload : Bytes} {h : Header} (hd : Header.decode bs = .ok (h, payload)) :
    payload = (bs.drop Header.size).take h.payloadLength.toNat ∧
      payload.length = h.payloadLength.toNat := by
  unfold Header.decode at hd
  split at hd
  · next kind flags rest =>
    split at hd
    · cases hd
    · split at hd
      · cases hd
      · dsimp only at hd
        split at hd
        · cases hd
        · next hl =>
          cases hd
          -- four bytes make a number that the field can hold
          have hlt : ofBigEndian ((rest.drop 2).take 4) < 2 ^ 32 := by
            refine lt_of_lt_of_le (ofBigEndian_lt _) ?_
            refine le_trans (Nat.pow_le_pow_right (by decide) (List.length_take_le 4 _)) (by decide)
          have hn := UInt32.toNat_ofNat_of_lt' hlt
          simp only [hn]
          exact ⟨rfl, by rw [List.length_take]; omega⟩
  · cases hd

/-! ## Frames that come in on a receive link -/

theorem Incoming.ofFrame_eq_data_iff {format : WireFormat} {frame : Bytes} {h : Header} {n : Nat} :
    Incoming.ofFrame format frame = .data h n ↔
      ∃ xs, DataPacket.ofFrame? format frame = some ⟨h, xs⟩ ∧ xs.length = n := by
  unfold Incoming.ofFrame DataPacket.ofFrame?
  cases hd : Header.decode frame with
  | error e => simp
  | ok r =>
    obtain ⟨g, payload⟩ := r
    obtain ⟨-, hl⟩ := Header.payload_of_decode hd
    simp only [← hl]
    cases hk : g.kind with
    | data =>
      by_cases hw : payload.length % format.sampleBytes = 0
      · simp only [hw, if_true, true_and, Incoming.data.injEq, Option.some.injEq, DataPacket.mk.injEq]
        constructor
        · rintro ⟨rfl, rfl⟩
          exact ⟨_, ⟨rfl, rfl⟩, WireFormat.length_decode _ _⟩
        · rintro ⟨_, ⟨rfl, rfl⟩, rfl⟩
          exact ⟨rfl, (WireFormat.length_decode _ _).symm⟩
      · simp [hw]
    | status => cases RxCode.decode payload <;> simp
    | command => simp
    | event => simp

/-- A frame that is no data packet holds none. -/
theorem DataPacket.ofFrame?_eq_none {format : WireFormat} {frame : Bytes}
    (h : ∀ g n, Incoming.ofFrame format frame ≠ .data g n) : DataPacket.ofFrame? format frame = none := by
  cases hp : DataPacket.ofFrame? format frame with
  | none => rfl
  | some p => exact absurd (Incoming.ofFrame_eq_data_iff.2 ⟨p.samples, hp, rfl⟩) (h p.header p.samples.length)

/-! ## Writing a packet -/

theorem Header.testBit_flags (h : Header) :
    h.flags.toNat.testBit 0 = h.hasTime ∧ h.flags.toNat.testBit 1 = h.startOfBurst ∧
      h.flags.toNat.testBit 2 = h.endOfBurst ∧ h.flags.toNat.testBit 3 = h.endOfVector := by
  unfold Header.flags
  generalize h.hasTime = a, h.startOfBurst = b, h.endOfBurst = c, h.endOfVector = d
  revert a b c d
  decide

/-- Reading what was written gives the header back, and the payload as far as the
header says it goes. -/
theorem Header.decode_bytes (h : Header) (payload : Bytes) (hl : h.payloadLength.toNat ≤ payload.length) :
    Header.decode (h.bytes ++ payload) = .ok (h, payload.take h.payloadLength.toNat) := by
  obtain ⟨h₀, h₁, h₂, h₃⟩ := h.testBit_flags
  have hs : (bigEndian 2 h.sequence.toNat).length = 2 := length_bigEndian _ _
  have hp : (bigEndian 4 h.payloadLength.toNat).length = 4 := length_bigEndian _ _
  have ht : (bigEndian 8 h.timestamp.toNat).length = 8 := length_bigEndian _ _
  unfold Header.decode Header.bytes
  simp only [List.cons_append, PacketKind.ofWire?_wire]
  generalize hbs : bigEndian 2 h.sequence.toNat = bs at *
  generalize hbp : bigEndian 4 h.payloadLength.toNat = bp at *
  generalize hbt : bigEndian 8 h.timestamp.toNat = bt at *
  -- the fields lie one behind the other, so each is found at its place
  have e₂ : (bs ++ bp ++ bt ++ payload).take 2 = bs := by
    rw [List.append_assoc, List.append_assoc, List.take_left' hs]
  have e₄ : ((bs ++ bp ++ bt ++ payload).drop 2).take 4 = bp := by
    rw [List.append_assoc, List.append_assoc, List.drop_left' hs, List.take_left' hp]
  have e₈ : ((bs ++ bp ++ bt ++ payload).drop 6).take 8 = bt := by
    rw [List.append_assoc, List.drop_left' (by rw [List.length_append, hs, hp]), List.take_left' ht]
  have e : (bs ++ bp ++ bt ++ payload).drop 14 = payload :=
    List.drop_left' (by rw [List.length_append, List.length_append, hs, hp, ht])
  -- and each has enough bytes for its number
  have hn : ofBigEndian bp = h.payloadLength.toNat := by
    rw [← hbp, ofBigEndian_bigEndian]
    exact Nat.mod_eq_of_lt h.payloadLength.toNat_lt
  have hq : ofBigEndian bs = h.sequence.toNat := by
    rw [← hbs, ofBigEndian_bigEndian]
    exact Nat.mod_eq_of_lt h.sequence.toNat_lt
  have hτ : ofBigEndian bt = h.timestamp.toNat := by
    rw [← hbt, ofBigEndian_bigEndian]
    exact Nat.mod_eq_of_lt h.timestamp.toNat_lt
  rw [if_neg (by simp only [List.length_append, hs, hp, ht]; omega), e₂, e₄, e₈, e, hn, hq, hτ,
    if_neg (Nat.not_lt.2 hl), h₀, h₁, h₂, h₃, UInt16.ofNat_toNat, UInt32.ofNat_toNat, UInt64.ofNat_toNat]

/-- Reading a data packet on the wire gives the samples as far as the length field says. -/
theorem DataPacket.decode_bytes (format : WireFormat) (h : Header) (xs : List (Iq Int16)) :
    Header.decode (DataPacket.bytes format h xs) =
      .ok ({ h with payloadLength := UInt32.ofNat (xs.length * format.sampleBytes) },
        (xs.flatMap format.encode).take (UInt32.ofNat (xs.length * format.sampleBytes)).toNat) := by
  refine Header.decode_bytes { h with payloadLength := UInt32.ofNat (xs.length * format.sampleBytes) } _ ?_
  rw [format.length_flatMap_encode]
  exact Nat.mod_le _ _

/-- A length field that wraps around still tells of whole samples. -/
theorem Incoming.ofFrame_bytes (format : WireFormat) {h : Header} (xs : List (Iq Int16)) (hk : h.kind = .data) :
    ∃ n, Incoming.ofFrame format (DataPacket.bytes format h xs) =
      .data { h with payloadLength := UInt32.ofNat (xs.length * format.sampleBytes) } n := by
  have hw : (UInt32.ofNat (xs.length * format.sampleBytes)).toNat % format.sampleBytes = 0 := by
    rw [UInt32.toNat_ofNat']
    cases format <;> simp only [WireFormat.sampleBytes] <;> omega
  unfold Incoming.ofFrame
  rw [DataPacket.decode_bytes]
  dsimp only
  rw [hk]
  dsimp only
  rw [if_pos hw]
  exact ⟨_, rfl⟩

/-- The length field of a header has thirty-two bits, enough for the payload of `n` samples. -/
def WireFormat.PayloadFits (format : WireFormat) (n : Nat) : Prop := n * format.sampleBytes < 2 ^ 32

instance (format : WireFormat) (n : Nat) : Decidable (format.PayloadFits n) := inferInstanceAs (Decidable (_ < _))

theorem WireFormat.payloadFits_zero (format : WireFormat) : format.PayloadFits 0 := by
  rw [PayloadFits, Nat.zero_mul]
  decide

theorem WireFormat.PayloadFits.mono {format : WireFormat} {m n : Nat} (h : format.PayloadFits n) (hle : m ≤ n) :
    format.PayloadFits m :=
  (Nat.mul_le_mul_right _ hle).trans_lt h

/-- The packet that is read back from a data packet on the wire. -/
theorem DataPacket.ofFrame?_bytes (format : WireFormat) {h : Header} {xs : List (Iq Int16)} (hk : h.kind = .data)
    (hl : format.PayloadFits xs.length) :
    DataPacket.ofFrame? format (DataPacket.bytes format h xs) =
      some ⟨{ h with payloadLength := UInt32.ofNat (xs.length * format.sampleBytes) }, xs.map format.carried⟩ := by
  have hn := format.length_flatMap_encode xs
  have hlen : (UInt32.ofNat (xs.length * format.sampleBytes)).toNat = xs.length * format.sampleBytes :=
    UInt32.toNat_ofNat_of_lt' hl
  rw [DataPacket.ofFrame?, DataPacket.decode_bytes]
  dsimp only
  rw [hlen, ← hn, List.take_length, if_pos ⟨hk, by rw [hn, Nat.mul_mod_left]⟩, WireFormat.decode_flatMap_encode]

/-- The length of a payload has thirty-two bits, so none of a payload of `2 ^ 32` bytes
is read. -/
theorem DataPacket.ofFrame?_bytes_overlong (format : WireFormat) {h : Header} {xs : List (Iq Int16)}
    (hk : h.kind = .data) (hl : xs.length * format.sampleBytes = 2 ^ 32) :
    DataPacket.ofFrame? format (DataPacket.bytes format h xs) = some ⟨{ h with payloadLength := 0 }, []⟩ := by
  rw [DataPacket.ofFrame?, DataPacket.decode_bytes, hl, show UInt32.ofNat (2 ^ 32) = 0 from rfl]
  dsimp only
  rw [show (0 : UInt32).toNat = 0 from rfl, List.take_zero, if_pos ⟨hk, Nat.zero_mod _⟩]
  cases format <;> rfl

/-- A frame with room for the samples takes all of them. -/
theorem Header.encodeSamples_spec {S : Type} [HostSample S] (h : Header) (format : WireFormat) {xs : List S}
    {frame : Bytes} (hfit : Header.size + xs.length * format.sampleBytes ≤ frame.length) :
    ∃ w, h.encodeSamples format xs frame = ⟨.ok (Header.size + xs.length * format.sampleBytes), w⟩ ∧
      w.length = frame.length ∧ w.take (Header.size + xs.length * format.sampleBytes) =
        DataPacket.bytes format h (xs.map HostSample.toRaw) := by
  have hcount : min xs.length ((frame.drop Header.size).length / format.sampleBytes) = xs.length := by
    rw [List.length_drop]
    exact Nat.min_eq_left ((Nat.le_div_iff_mul_le format.sampleBytes_pos).2 (by omega))
  have hbody : (xs.take xs.length).flatMap (fun x => format.encode (HostSample.toRaw x)) =
      (xs.map HostSample.toRaw).flatMap format.encode := by
    rw [List.take_length, List.flatMap_map]
  have hlen : ((xs.map (HostSample.toRaw (σ := S))).flatMap format.encode).length = xs.length * format.sampleBytes := by
    rw [format.length_flatMap_encode, List.length_map]
  refine ⟨Header.bytes { h with payloadLength := UInt32.ofNat (xs.length * format.sampleBytes) } ++
    splice (frame.drop Header.size) 0 ((xs.map HostSample.toRaw).flatMap format.encode), ?_, ?_, ?_⟩
  · unfold Header.encodeSamples
    rw [if_neg (by omega), WireFormat.pack]
    dsimp only
    rw [hcount, hbody]
  · rw [List.length_append, Header.length_bytes, length_splice (by rw [hlen, List.length_drop]; omega),
      List.length_drop]
    omega
  · rw [splice, List.take_zero, List.nil_append, ← List.append_assoc, DataPacket.bytes, List.length_map]
    exact List.take_left' (by rw [List.length_append, Header.length_bytes, hlen])

/-- Samples for which a frame has no room are left out. -/
theorem Header.encodeSamples_take {S : Type} [HostSample S] (h : Header) (format : WireFormat) (xs : List S)
    (frame : Bytes) :
    h.encodeSamples format xs frame =
      h.encodeSamples format (xs.take ((frame.length - Header.size) / format.sampleBytes)) frame := by
  have hcount : ∀ n, min (xs.take n).length n = min xs.length n := by
    intro n
    rw [List.length_take, Nat.min_right_comm, Nat.min_self, Nat.min_comm]
  unfold Header.encodeSamples WireFormat.pack
  dsimp only
  rw [List.length_drop, hcount, List.take_take, Nat.min_assoc, Nat.min_self]

/-- The samples that are left fit behind a header. -/
theorem Header.fits_take {S : Type} (format : WireFormat) (xs : List S) {n : Nat} (hsize : Header.size ≤ n) :
    Header.size + (xs.take ((n - Header.size) / format.sampleBytes)).length * format.sampleBytes ≤ n := by
  have hle := List.length_take_le ((n - Header.size) / format.sampleBytes) xs
  have := (Nat.le_div_iff_mul_le format.sampleBytes_pos).1 hle
  omega

/-- What a frame with room for a header takes of the samples. -/
theorem Header.exists_encodeSamples {S : Type} [HostSample S] (h : Header) (format : WireFormat) (xs : List S)
    {frame : Bytes} (hsize : Header.size ≤ frame.length) :
    ∃ ys w, h.encodeSamples format xs frame = ⟨.ok (Header.size + ys.length * format.sampleBytes), w⟩ ∧
      w.length = frame.length ∧ Header.size + ys.length * format.sampleBytes ≤ frame.length ∧
      w.take (Header.size + ys.length * format.sampleBytes) = DataPacket.bytes format h ys := by
  have hfit := Header.fits_take format xs hsize
  rw [h.encodeSamples_take format xs frame]
  generalize xs.take ((frame.length - Header.size) / format.sampleBytes) = ys at hfit ⊢
  obtain ⟨w, he, hw, ht⟩ := h.encodeSamples_spec format hfit
  refine ⟨ys.map HostSample.toRaw, w, ?_, hw, ?_, ?_⟩
  · rw [he, List.length_map]
  · rw [List.length_map]
    exact hfit
  · rw [List.length_map]
    exact ht

/-- Writing a packet keeps the size of the frame. -/
theorem Header.length_encodeSamples {S : Type} [HostSample S] (h : Header) (format : WireFormat) (xs : List S)
    (frame : Bytes) : (h.encodeSamples format xs frame).frame.length = frame.length := by
  by_cases hsize : frame.length < Header.size
  · rw [Header.encodeSamples, if_pos hsize]
  · obtain ⟨ys, w, he, hw, -⟩ := h.exists_encodeSamples format xs (Nat.le_of_not_lt hsize)
    rw [he]
    exact hw

/-! ## A packet that a channel holds -/

/-- A double is made of the last sixty-four bits of a whole number. -/
theorem Instant.ofTicks_congr {m n : Int} (h : Int64.ofInt m = Int64.ofInt n) (rate : Float) :
    Instant.ofTicks m rate = Instant.ofTicks n rate := by
  have hs : (Scalar.ofInt m : Float) = Scalar.ofInt n := congrArg Int64.toFloat h
  unfold Instant.ofTicks
  rw [hs]

/-- The instant of a start tick: none is before zero. -/
theorem Instant.ofCounter_startTick (t : Instant) (rate rate' : Float) :
    Instant.ofCounter (t.startTick rate) rate' = Instant.ofTicks (max 0 (t.toTicks rate)) rate' := by
  apply Instant.ofTicks_congr
  rw [Int64.ofInt_toInt, Int.max_comm, ← Int.ofNat_toNat]
  rfl

namespace Held

/-- A channel holds a packet of which it has handed out some samples. -/
structure Of (format : WireFormat) (p : DataPacket) (h : Held) : Prop where
  header : h.header = p.header
  samples : h.samples = p.samples.length
  offset : h.offset ≤ h.samples
  payload : format.decode h.payload = p.samples

variable {format : WireFormat} {p : DataPacket} {h : Held}

theorem Of.unread (ho : Of format p h) : h.unread format = p.samples.drop h.offset := by
  rw [Held.unread, WireFormat.decode_drop, ho.payload]

theorem Of.length_unread (ho : Of format p h) : (h.unread format).length = h.remaining := by
  rw [ho.unread, List.length_drop, ← ho.samples, remaining]

theorem Of.tick (ho : Of format p h) (ht : p.header.hasTime = true) :
    h.tick? = some (p.start + h.offset) := by
  simp [tick?, ho.header, ht, DataPacket.start]

/-- What comes in as a data packet is held whole. -/
theorem exists_of {format : WireFormat} {f : Frame} {g : Header} {n : Nat}
    (hf : Incoming.ofFrame format f.payload = .data g n) :
    ∃ p, DataPacket.ofFrame? format f.payload = some p ∧ p.header = g ∧
      Of format p { frame := f, header := g, samples := n } := by
  obtain ⟨xs, hp, hn⟩ := Incoming.ofFrame_eq_data_iff.1 hf
  refine ⟨_, hp, rfl, ⟨rfl, hn.symm, Nat.zero_le _, ?_⟩⟩
  unfold DataPacket.ofFrame? at hp
  split at hp
  · next g' payload hd =>
    split at hp
    · cases hp
      rw [Held.payload, ← (Header.payload_of_decode hd).1]
    · cases hp
  · cases hp

/-- Handing out samples leaves the same packet with a larger offset. -/
theorem Of.advance (ho : Of format p h) {n : Nat} (hn : n ≤ h.remaining) :
    Of format p { h with offset := h.offset + n } where
  header := ho.header
  samples := ho.samples
  offset := by have := ho.offset; rw [remaining] at hn; show h.offset + n ≤ h.samples; omega
  payload := ho.payload

/-- The time of a packet is that of the tick of its next sample. -/
theorem timeAt_eq (h : Header) (offset : Nat) (rate : Float) :
    timeAt h offset rate = Instant.ofTicks ((h.timestamp.toNat + offset : Nat) : Int) rate := by
  have hi : h.timestamp.toInt64 = Int64.ofInt (h.timestamp.toNat : Int) := by
    conv_lhs => rw [← UInt64.ofNat_toNat (x := h.timestamp)]
    rfl
  apply Instant.ofTicks_congr
  rw [Int.natCast_add, Int64.ofInt_add, Int64.ofInt_add, Int64.ofInt_toInt, hi]

end Held

end RadioStream
