import RadioStream.Packet.Control
import RadioStream.Proofs.Packet
/-!
# Packets there and back

A packet is written at the start of a frame, over whatever is in it, and read from a
frame that has anything behind it. `Written.Puts` says what writing some bytes does to
a frame with room for them and to one without. `ReadsBack` adds the reader: the bytes do
not depend on the frame, and every frame that begins with them reads as the packet.
`encodePacket_readsBack` has it for a header and a payload; commands, conditions and
events are payloads of their own, so for them it is left to show that the payload reads
back (`decode_payload`).

The time of a command is written as a tick. Reading it gives the instant of that tick,
which need not be the instant that was written.
-/

namespace RadioStream

/-- Bytes written at the start of a frame. Where they fit, the frame is as before behind
them; where they do not, all of it is. -/
structure Written.Puts (w : Written) (bytes frame : Bytes) : Prop where
  fits : bytes.length ≤ frame.length →
    w.outcome = .ok bytes.length ∧ w.frame = bytes ++ frame.drop bytes.length
  refused : frame.length < bytes.length → (∃ e, w.outcome = .error (.argument e)) ∧ w.frame = frame

/-- A packet of a given length: `write` puts it into any frame, and a frame that begins
with it reads as a header and a payload that are `good`. -/
def ReadsBack (write : Bytes → Written) (length : Nat) (good : Header → Bytes → Prop) : Prop :=
  ∃ bytes : Bytes, bytes.length = length ∧ (∀ frame, (write frame).Puts bytes frame) ∧
    ∀ frame, bytes <+: frame → ∃ h payload, Header.decode frame = .ok (h, payload) ∧ good h payload

namespace Header

/-- The header that a payload travels with. -/
def sized (h : Header) (payload : Bytes) : Header := { h with payloadLength := UInt32.ofNat payload.length }

theorem encodePacket_puts (h : Header) (payload frame : Bytes) :
    (h.encodePacket payload frame).Puts ((h.sized payload).bytes ++ payload) frame := by
  have hl : ((h.sized payload).bytes ++ payload).length = size + payload.length := by
    rw [List.length_append, length_bytes]
  constructor
  · intro hfit
    rw [hl] at hfit
    rw [encodePacket, if_neg (Nat.not_lt.2 hfit)]
    exact ⟨congrArg Except.ok hl.symm, by simp only [splice, sized, List.take_zero, List.nil_append, Nat.zero_add]⟩
  · intro hshort
    rw [hl] at hshort
    rw [encodePacket, if_pos hshort]
    exact ⟨⟨_, rfl⟩, rfl⟩

/-- A header and a payload come back from any frame that begins with them. -/
theorem encodePacket_readsBack (h : Header) {payload : Bytes} (hl : payload.length < 2 ^ 32) :
    ReadsBack (h.encodePacket payload) (size + payload.length) fun g p => g = h.sized payload ∧ p = payload := by
  refine ⟨(h.sized payload).bytes ++ payload, by rw [List.length_append, length_bytes],
    h.encodePacket_puts payload, ?_⟩
  rintro _ ⟨rest, rfl⟩
  -- a length below `2 ^ 32` is told as it is, so what lies behind the payload is left out
  have hn : (h.sized payload).payloadLength.toNat = payload.length := UInt32.toNat_ofNat_of_lt' hl
  refine ⟨h.sized payload, payload, ?_, rfl, rfl⟩
  rw [List.append_assoc, decode_bytes _ _ (by rw [hn, List.length_append]; omega), hn, List.take_left]

/-- What the header and the payload of a packet are good for, they are good for when they
come back. -/
theorem encodePacket_readsBack_of (h : Header) {payload : Bytes} {n : Nat} (hl : payload.length = n) (hn : n < 2 ^ 32)
    {good : Header → Bytes → Prop} (hg : good (h.sized payload) payload) :
    ReadsBack (h.encodePacket payload) (size + n) good := by
  subst hl
  obtain ⟨bytes, hlen, hputs, hread⟩ := h.encodePacket_readsBack hn
  refine ⟨bytes, hlen, hputs, fun frame hf => ?_⟩
  obtain ⟨_, _, hd, rfl, rfl⟩ := hread frame hf
  exact ⟨_, _, hd, hg⟩

/-- The timestamp that a header has, if it has one. -/
def timestamp? (h : Header) : Option UInt64 := if h.hasTime then some h.timestamp else none

theorem sized_stamped (kind : PacketKind) (payload : Bytes) (t : Option UInt64) :
    ((stamped { kind } t).sized payload).kind = kind ∧ ((stamped { kind } t).sized payload).timestamp? = t := by
  cases t <;> exact ⟨rfl, rfl⟩

end Header

/-! ## Payloads of control packets -/

theorem UInt32.ofBigEndian_bigEndian (w : UInt32) : UInt32.ofNat (ofBigEndian (bigEndian 4 w.toNat)) = w := by
  have hlt : w.toNat < 256 ^ 4 := w.toNat_lt
  rw [RadioStream.ofBigEndian_bigEndian, Nat.mod_eq_of_lt hlt, UInt32.ofNat_toNat]

namespace StreamCommand

/-- The command that comes back: a command put off has the instant of its tick. -/
def carried (c : StreamCommand) (rate : Float) : StreamCommand :=
  { c with time := if c.immediate then Instant.zero else Instant.ofTicks (max 0 (c.time.toTicks rate)) rate }

theorem length_payload {α : Type} (c : StreamCommand α) : c.payload.length = 12 := by
  simp [payload]

/-- What a command is read as, behind any header. -/
theorem decode_payload_eq {α : Type} [Scalar α] (c : StreamCommand α) (h : Header) (rate : α) :
    decode h c.payload rate = .ok { c with
      immediate := c.immediate || !h.hasTime
      time := if h.hasTime then Instant.ofCounter h.timestamp rate else Instant.zero } := by
  have hn : UInt64.ofNat (ofBigEndian (bigEndian 8 c.samples.toNat)) = c.samples := by
    have hlt : c.samples.toNat < 256 ^ 8 := c.samples.toNat_lt
    rw [ofBigEndian_bigEndian, Nat.mod_eq_of_lt hlt, UInt64.ofNat_toNat]
  have hl : (bigEndian 8 c.samples.toNat).length = 8 := length_bigEndian _ _
  obtain ⟨mode, samples, immediate, time⟩ := c
  unfold decode payload
  simp only [List.cons_append, List.nil_append, hl, ne_eq, not_true_eq_false, if_false, StreamMode.ofWire?_wire, hn]
  cases immediate <;> rfl

theorem decode_payload (c : StreamCommand) (rate : Float) :
    decode ((c.header rate).sized c.payload) c.payload rate = .ok (c.carried rate) := by
  rw [decode_payload_eq]
  obtain ⟨mode, samples, immediate, time⟩ := c
  cases immediate with
  | true => rfl
  | false =>
    -- the tick is in the header, which says that it is there
    simp only [carried, header, Header.sized, Header.stamped, Bool.false_eq_true, if_false, if_true,
      Instant.ofCounter_startTick]
    rfl

end StreamCommand

theorem RxCode.decode_payload (c : RxCode) : RxCode.decode (bigEndian 4 c.wire.toNat) = .ok c := by
  rw [RxCode.decode, if_neg (by rw [length_bigEndian]; decide)]
  simp only [UInt32.ofBigEndian_bigEndian, RxCode.ofWire?_wire]

namespace EventReport

theorem length_payload (e : EventReport) : e.payload.length = 24 := by
  simp [payload]

/-- Words written one behind the other are found every four bytes. -/
theorem wordAt_flatMap {ws : List UInt32} {i : Nat} (h : i < ws.length) :
    wordAt (ws.flatMap fun w => bigEndian 4 w.toNat) (4 * i) = ws[i] := by
  induction ws generalizing i with
  | nil => exact absurd h (Nat.not_lt_zero i)
  | cons w ws ih =>
    have hl : (bigEndian 4 w.toNat).length = 4 := length_bigEndian _ _
    rw [wordAt, List.flatMap_cons]
    cases i with
    | zero =>
      rw [Nat.mul_zero, List.drop_zero, List.take_left' hl, UInt32.ofBigEndian_bigEndian, List.getElem_cons_zero]
    | succ i =>
      rw [show 4 * (i + 1) = (bigEndian 4 w.toNat).length + 4 * i by rw [hl]; omega,
        List.drop_length_add_append, List.getElem_cons_succ]
      exact ih (Nat.lt_of_succ_lt_succ h)

theorem decode_payload (e : EventReport) : decode e.payload = .ok e := by
  rw [decode, if_neg (by rw [length_payload]; decide)]
  have hw : ∀ {i : Nat} (h : i < 6), wordAt e.payload (4 * i) =
      [e.channel, e.code.wire, e.words.first, e.words.second, e.words.third, e.words.fourth][i] :=
    fun h => wordAt_flatMap h
  have h₀ : wordAt e.payload 0 = e.channel := hw (i := 0) (by decide)
  have h₁ : wordAt e.payload 4 = e.code.wire := hw (i := 1) (by decide)
  have h₂ : wordAt e.payload 8 = e.words.first := hw (i := 2) (by decide)
  have h₃ : wordAt e.payload 12 = e.words.second := hw (i := 3) (by decide)
  have h₄ : wordAt e.payload 16 = e.words.third := hw (i := 4) (by decide)
  have h₅ : wordAt e.payload 20 = e.words.fourth := hw (i := 5) (by decide)
  simp only [h₀, h₁, h₂, h₃, h₄, h₅, EventCode.ofWire?_wire]

end EventReport

/-! ## The whole format -/

/-- Reading undoes writing: for packets of any kind, in any frame, with anything behind them. -/
theorem decode_encode :
    (∀ (h : Header) (payload : Bytes), payload.length < 2 ^ 32 →
      ReadsBack (h.encodePacket payload) (16 + payload.length) fun g p => g = h.sized payload ∧ p = payload) ∧
    (∀ (c : StreamCommand) (rate : Float),
      ReadsBack (c.encode rate) 28 fun g p =>
        g.kind = .command ∧ StreamCommand.decode g p rate = .ok (c.carried rate)) ∧
    (∀ (c : RxCode) (t : Option UInt64),
      ReadsBack (c.encode t) 20 fun g p => g.kind = .status ∧ g.timestamp? = t ∧ RxCode.decode p = .ok c) ∧
    ∀ (e : EventReport) (t : Option UInt64),
      ReadsBack (e.encode t) 40 fun g p => g.kind = .event ∧ g.timestamp? = t ∧ EventReport.decode p = .ok e := by
  refine ⟨fun h payload hl => h.encodePacket_readsBack hl, fun c rate => ?_, fun c t => ?_, fun e t => ?_⟩
  · obtain ⟨hk, -⟩ := Header.sized_stamped .command c.payload
      (if c.immediate then none else some (c.time.startTick rate))
    exact (c.header rate).encodePacket_readsBack_of c.length_payload (by decide) ⟨hk, c.decode_payload rate⟩
  · obtain ⟨hk, ht⟩ := Header.sized_stamped .status (bigEndian 4 c.wire.toNat) t
    exact (Header.stamped { kind := .status } t).encodePacket_readsBack_of (length_bigEndian 4 _) (by decide)
      ⟨hk, ht, c.decode_payload⟩
  · obtain ⟨hk, ht⟩ := Header.sized_stamped .event e.payload t
    exact (Header.stamped { kind := .event } t).encodePacket_readsBack_of e.length_payload (by decide)
      ⟨hk, ht, e.decode_payload⟩

/-- A data packet of three bytes, whose header tells another length. -/
theorem decode_encode_three : [1, 2, 3].length < 2 ^ 32 ∧
    ReadsBack (Header.encodePacket { sequence := 7, endOfBurst := true, payloadLength := 9 } [1, 2, 3]) 19 fun g p =>
      g = { sequence := 7, endOfBurst := true, payloadLength := 3 } ∧ p = [1, 2, 3] :=
  ⟨by decide, decode_encode.1 _ [1, 2, 3] (by decide)⟩

end RadioStream
