import RadioStream.Proofs.RoundTrip
/-!
# What is accepted

A frame is a packet if it has a header of a known kind and the whole payload that the header
tells of. A payload of a command, a condition or an event has one length and a known mode or
code. `decode_exact` says that each reader takes just that and refuses all else as a malformed
packet, and that what it took can be written again: the bytes come back, but for four flags
that mean nothing and for what a command does not use.
-/

namespace RadioStream

/-- A reader takes what is `good` and refuses all else as a malformed packet. What it makes of
the bytes that it takes is in keeping with them. -/
structure Accepts {β : Type} (read : Bytes → Except Error β) (good : Bytes → Prop) (keeping : Bytes → β → Prop) :
    Prop where
  takes : ∀ bs, (∃ x, read bs = .ok x) ↔ good bs
  refuses : ∀ bs, ¬good bs → ∃ fault, read bs = .error (.packet fault)
  keeps : ∀ bs x, read bs = .ok x → keeping bs x

/-- Bytes that a reader takes, or bytes that it refuses. -/
inductive Verdict {β : Type} (good : Prop) (keeping : β → Prop) : Except Error β → Prop where
  | taken (x : β) : good → keeping x → Verdict good keeping (.ok x)
  | refused (fault : PacketFault) : ¬good → Verdict good keeping (.error (.packet fault))

theorem Accepts.of_verdicts {β : Type} {read : Bytes → Except Error β} {good : Bytes → Prop}
    {keeping : Bytes → β → Prop} (h : ∀ bs, Verdict (good bs) (keeping bs) (read bs)) : Accepts read good keeping where
  takes bs := by
    have hv := h bs
    generalize read bs = r at hv ⊢
    cases hv with
    | taken x hg _ => exact ⟨fun _ => hg, fun _ => ⟨x, rfl⟩⟩
    | refused fault hb =>
      refine ⟨?_, fun hg => absurd hg hb⟩
      rintro ⟨x, hx⟩
      cases hx
  refuses bs hb := by
    have hv := h bs
    generalize read bs = r at hv ⊢
    cases hv with
    | taken x hg _ => exact absurd hg hb
    | refused fault _ => exact ⟨fault, rfl⟩
  keeps bs x hx := by
    have hv := h bs
    rw [hx] at hv
    cases hv with
    | taken _ _ hk => exact hk

/-! ## Numbers -/

/-- Writing what was read gives the bytes back. -/
theorem bigEndian_ofBigEndian {bs : Bytes} {k : Nat} (hl : bs.length = k) : bigEndian k (ofBigEndian bs) = bs := by
  subst hl
  induction bs using List.reverseRecOn with
  | nil => rfl
  | append_singleton bs b ih =>
    have hb := b.toNat_lt
    have hdiv : (256 * ofBigEndian bs + b.toNat) / 256 = ofBigEndian bs := by omega
    have hmod : UInt8.ofNat (256 * ofBigEndian bs + b.toNat) = b := by
      apply UInt8.toNat.inj
      rw [UInt8.toNat_ofNat']
      omega
    rw [List.length_append, List.length_singleton, ofBigEndian_append_singleton, bigEndian, hdiv, hmod, ih]

/-- A number of four bytes is not cut off by a field of four bytes. -/
theorem toNat_uint32_ofBigEndian {bs : Bytes} (hl : bs.length = 4) :
    (UInt32.ofNat (ofBigEndian bs)).toNat = ofBigEndian bs := by
  apply UInt32.toNat_ofNat_of_lt'
  exact lt_of_lt_of_eq (ofBigEndian_lt bs) (by rw [hl]; rfl)

theorem bigEndian_uint16 {bs : Bytes} (hl : bs.length = 2) :
    bigEndian 2 (UInt16.ofNat (ofBigEndian bs)).toNat = bs := by
  have hlt : ofBigEndian bs < 2 ^ 16 := lt_of_lt_of_eq (ofBigEndian_lt bs) (by rw [hl]; rfl)
  rw [UInt16.toNat_ofNat_of_lt' hlt, bigEndian_ofBigEndian hl]

theorem bigEndian_uint32 {bs : Bytes} (hl : bs.length = 4) :
    bigEndian 4 (UInt32.ofNat (ofBigEndian bs)).toNat = bs := by
  rw [toNat_uint32_ofBigEndian hl, bigEndian_ofBigEndian hl]

theorem bigEndian_uint64 {bs : Bytes} (hl : bs.length = 8) :
    bigEndian 8 (UInt64.ofNat (ofBigEndian bs)).toNat = bs := by
  have hlt : ofBigEndian bs < 2 ^ 64 := lt_of_lt_of_eq (ofBigEndian_lt bs) (by rw [hl]; rfl)
  rw [UInt64.toNat_ofNat_of_lt' hlt, bigEndian_ofBigEndian hl]

/-! ## Frames -/

theorem PacketKind.ofWire?_eq_some_iff {b : UInt8} {k : PacketKind} : ofWire? b = some k ↔ b = k.wire := by
  constructor
  · intro h
    unfold ofWire? at h
    split at h <;> cases h <;> rfl
  · rintro rfl
    exact ofWire?_wire k

theorem PacketKind.exists_wire_iff {b : UInt8} : (∃ k : PacketKind, b = k.wire) ↔ 1 ≤ b ∧ b ≤ 4 := by
  constructor
  · rintro ⟨k, rfl⟩
    cases k <;> decide
  · rintro ⟨h₁, h₄⟩
    rw [UInt8.le_iff_toNat_le] at h₁ h₄
    have hb : b.toNat = 1 ∨ b.toNat = 2 ∨ b.toNat = 3 ∨ b.toNat = 4 := by
      simp at h₁ h₄
      omega
    rcases hb with hb | hb | hb | hb
    · exact ⟨.data, UInt8.toNat.inj hb⟩
    · exact ⟨.command, UInt8.toNat.inj hb⟩
    · exact ⟨.status, UInt8.toNat.inj hb⟩
    · exact ⟨.event, UInt8.toNat.inj hb⟩

namespace Header

/-- A header of a known kind and the whole payload that it tells of. -/
structure WellFormed (frame : Bytes) : Prop where
  header : size ≤ frame.length
  kind : ∃ b ∈ frame.head?, 1 ≤ b ∧ b ≤ 4
  payload : size + ofBigEndian ((frame.drop 4).take 4) ≤ frame.length

/-- What was read of a frame is written as the frame begins, but for the flags that mean nothing. -/
def Repeats (frame : Bytes) (c : Header × Bytes) : Prop :=
  c.2.length = c.1.payloadLength.toNat ∧ ∀ out, (c.1.encodePacket c.2 out).Puts
    ((frame.take (size + c.1.payloadLength.toNat)).modify 1 (· &&& 0x0f)) out

theorem flags_eq_and {b : UInt8} {h : Header} (h₀ : h.hasTime = b.toNat.testBit 0)
    (h₁ : h.startOfBurst = b.toNat.testBit 1) (h₂ : h.endOfBurst = b.toNat.testBit 2)
    (h₃ : h.endOfVector = b.toNat.testBit 3) : h.flags = b &&& 0x0f := by
  have hand : (b &&& 0x0f).toNat = b.toNat % 2 ^ 4 := Nat.and_two_pow_sub_one_eq_mod b.toNat 4
  apply UInt8.toNat.inj
  rw [flags, UInt8.toNat_ofNat', hand, h₀, h₁, h₂, h₃]
  simp only [Nat.toNat_testBit]
  omega

/-- The fields of a header and the payload lie one behind the other. -/
theorem repeats_of_fields {h : Header} {kind flags : UInt8} {rest payload : Bytes} (hkind : h.kind.wire = kind)
    (hflags : h.flags = flags &&& 0x0f) (hl : 14 ≤ rest.length)
    (hseq : h.sequence = UInt16.ofNat (ofBigEndian (rest.take 2)))
    (hlen : h.payloadLength = UInt32.ofNat payload.length)
    (hfield : payload.length = ofBigEndian ((rest.drop 2).take 4))
    (htime : h.timestamp = UInt64.ofNat (ofBigEndian ((rest.drop 6).take 8)))
    (hpayload : payload = (rest.drop 14).take payload.length) : Repeats (kind :: flags :: rest) (h, payload) := by
  have h₂ : (rest.take 2).length = 2 := by rw [List.length_take]; omega
  have h₄ : ((rest.drop 2).take 4).length = 4 := by rw [List.length_take, List.length_drop]; omega
  have h₈ : ((rest.drop 6).take 8).length = 8 := by rw [List.length_take, List.length_drop]; omega
  have hrest : rest.take (14 + payload.length) =
      rest.take 2 ++ (rest.drop 2).take 4 ++ (rest.drop 6).take 8 ++ payload := by
    conv_rhs => rw [hpayload]
    rw [List.take_add, show 14 = 6 + 8 from rfl, List.take_add, show 6 = 2 + 4 from rfl, List.take_add]
  have hbytes : h.bytes ++ payload =
      ((kind :: flags :: rest).take (14 + payload.length + 1 + 1)).modify 1 (· &&& 0x0f) := by
    rw [bytes, hkind, hflags, hseq, hlen, hfield, htime, bigEndian_uint16 h₂, bigEndian_uint32 h₄, bigEndian_uint64 h₈,
      ← hfield, List.take_succ_cons, List.take_succ_cons, hrest]
    simp
  have hn : payload.length = h.payloadLength.toNat := by rw [hlen, hfield, toNat_uint32_ofBigEndian h₄]
  refine ⟨hn, fun out => ?_⟩
  have hputs := h.encodePacket_puts payload out
  rw [sized, ← hlen, hbytes] at hputs
  rw [← hn, show size + payload.length = 14 + payload.length + 1 + 1 by rw [size]; omega]
  exact hputs

theorem wellFormed_cons_iff {kind flags : UInt8} {rest : Bytes} :
    WellFormed (kind :: flags :: rest) ↔ 14 ≤ rest.length ∧ (1 ≤ kind ∧ kind ≤ 4) ∧
      ofBigEndian ((rest.drop 2).take 4) ≤ (rest.drop 14).length := by
  have hsize : size = 16 := rfl
  constructor
  · rintro ⟨hheader, ⟨b, hb, hrange⟩, hpayload⟩
    cases hb
    simp only [List.length_cons, List.drop_succ_cons, hsize] at hheader hpayload
    rw [List.length_drop]
    exact ⟨by omega, hrange, by omega⟩
  · rintro ⟨hl, hrange, hfit⟩
    rw [List.length_drop] at hfit
    refine ⟨?_, ⟨kind, rfl, hrange⟩, ?_⟩
    · simp only [List.length_cons, hsize]
      omega
    · simp only [List.length_cons, List.drop_succ_cons, hsize]
      omega

/-- A frame is read if it is well-formed, and then it is read whole. -/
theorem decode_verdict (frame : Bytes) : Verdict (WellFormed frame) (Repeats frame) (decode frame) := by
  unfold decode
  split
  · next kind flags rest =>
    split
    · next hshort => exact .refused _ fun hw => absurd (wellFormed_cons_iff.1 hw).1 (Nat.not_le.2 hshort)
    · next hlong =>
      have hl : 14 ≤ rest.length := Nat.not_lt.1 hlong
      split
      · next hnone =>
        refine .refused _ fun hw => ?_
        obtain ⟨k, rfl⟩ := PacketKind.exists_wire_iff.2 (wellFormed_cons_iff.1 hw).2.1
        rw [PacketKind.ofWire?_wire] at hnone
        cases hnone
      · next k hk =>
        obtain rfl := PacketKind.ofWire?_eq_some_iff.1 hk
        dsimp only
        split
        · next hpast => exact .refused _ fun hw => absurd (wellFormed_cons_iff.1 hw).2.2 (Nat.not_le.2 hpast)
        · next hin =>
          have hfit := Nat.not_lt.1 hin
          have hp : ((rest.drop 14).take (ofBigEndian ((rest.drop 2).take 4))).length =
              ofBigEndian ((rest.drop 2).take 4) := by
            rw [List.length_take]
            exact Nat.min_eq_left hfit
          refine .taken _ (wellFormed_cons_iff.2 ⟨hl, PacketKind.exists_wire_iff.1 ⟨k, rfl⟩, hfit⟩) ?_
          refine repeats_of_fields rfl (flags_eq_and rfl rfl rfl rfl) hl rfl ?_ hp rfl (by rw [hp])
          rw [hp]
  · next hcons =>
    refine .refused _ fun hw => ?_
    have hlen := hw.header
    rcases frame with _ | ⟨kind, _ | ⟨flags, rest⟩⟩
    · exact absurd hlen (by decide)
    · rw [List.length_singleton] at hlen
      exact absurd hlen (by decide)
    · exact hcons kind flags rest rfl

end Header

/-! ## Payloads -/

/-- Wherever it is written, a header of some kind and then this payload. -/
def WritesBack (write : Bytes → Written) (payload : Bytes) : Prop :=
  ∃ head : Bytes, head.length = Header.size ∧ ∀ frame, (write frame).Puts (head ++ payload) frame

theorem Header.encodePacket_writesBack (h : Header) (payload : Bytes) : WritesBack (h.encodePacket payload) payload :=
  ⟨(h.sized payload).bytes, length_bytes _, h.encodePacket_puts payload⟩

theorem StreamMode.ofWire?_eq_some_iff {b : UInt8} {m : StreamMode} : ofWire? b = some m ↔ b = m.wire := by
  constructor
  · intro h
    unfold ofWire? at h
    split_ifs at h with ha ho hd hm
    all_goals
      cases h
      assumption
  · rintro rfl
    exact ofWire?_wire m

namespace StreamCommand

/-- A payload of a command: twelve bytes, of which the first is a known mode. -/
def Known (payload : Bytes) : Prop := payload.length = 12 ∧ ∃ m : StreamMode, payload.head? = some m.wire

/-- The command has the mode and the number of the payload. -/
def InKeeping (payload : Bytes) (c : StreamCommand) : Prop :=
  c.payload.take 1 = payload.take 1 ∧ c.payload.drop 4 = payload.drop 4

theorem decode_verdict (h : Header) (rate : Float) (payload : Bytes) :
    Verdict (Known payload) (InKeeping payload) (decode h payload rate) := by
  unfold decode
  split
  · next mode now r₁ r₂ samples =>
    split
    · next hlen =>
      refine .refused _ fun hk => hlen ?_
      simpa using hk.1
    · next hlen =>
      have hlen : samples.length = 8 := Classical.not_not.1 hlen
      split
      · next hnone =>
        refine .refused _ fun hk => ?_
        obtain ⟨-, m, hm⟩ := hk
        cases hm
        rw [StreamMode.ofWire?_wire] at hnone
        cases hnone
      · next m hm =>
        obtain rfl := StreamMode.ofWire?_eq_some_iff.1 hm
        refine .taken _ ⟨by simp [hlen], m, rfl⟩ ⟨rfl, ?_⟩
        exact bigEndian_uint64 hlen
  · next hshort =>
    refine .refused _ fun hk => ?_
    have hlen := hk.1
    rcases payload with _ | ⟨mode, _ | ⟨now, _ | ⟨r₁, _ | ⟨r₂, samples⟩⟩⟩⟩
    · simp at hlen
    · simp at hlen
    · simp at hlen
    · simp at hlen
    · exact hshort mode now r₁ r₂ samples rfl

end StreamCommand

namespace RxCode

theorem ofWire?_eq_some_iff {w : UInt32} {c : RxCode} : ofWire? w = some c ↔ w = c.wire := by
  constructor
  · intro h
    have hw := List.find?_some h
    exact (beq_iff_eq.1 hw).symm
  · rintro rfl
    exact ofWire?_wire c

/-- A payload of a condition: four bytes, which are a known code. -/
def Known (payload : Bytes) : Prop := payload.length = 4 ∧ ∃ c : RxCode, ofBigEndian payload = c.wire.toNat

theorem decode_verdict (payload : Bytes) :
    Verdict (Known payload) (fun c => ∀ t, WritesBack (c.encode t) payload) (decode payload) := by
  unfold decode
  split
  · next hlen => exact .refused _ fun hk => hlen hk.1
  · next hlen =>
    have hlen : payload.length = 4 := Classical.not_not.1 hlen
    have hn := toNat_uint32_ofBigEndian hlen
    dsimp only
    split
    · next c hc =>
      rw [ofWire?_eq_some_iff] at hc
      refine .taken c ⟨hlen, c, ?_⟩ fun t => ?_
      · rw [← hn, hc]
      · have hback : bigEndian 4 c.wire.toNat = payload := by rw [← hc, bigEndian_uint32 hlen]
        unfold encode
        rw [hback]
        exact Header.encodePacket_writesBack _ payload
    · next hnone =>
      refine .refused _ fun hk => ?_
      obtain ⟨-, c, hc⟩ := hk
      rw [hc, UInt32.ofNat_toNat, ofWire?_wire] at hnone
      cases hnone

end RxCode

theorem EventCode.ofWire?_eq_some_iff {w : UInt32} {c : EventCode} : ofWire? w = some c ↔ w = c.wire := by
  constructor
  · intro h
    have hw := List.find?_some h
    exact (beq_iff_eq.1 hw).symm
  · rintro rfl
    exact ofWire?_wire c

namespace EventReport

/-- A payload of an event: six words, of which the second is a known code. -/
def Known (payload : Bytes) : Prop :=
  payload.length = 24 ∧ ∃ c : EventCode, ofBigEndian ((payload.drop 4).take 4) = c.wire.toNat

theorem bigEndian_wordAt {payload : Bytes} {i : Nat} (h : i + 4 ≤ payload.length) :
    bigEndian 4 (wordAt payload i).toNat = (payload.drop i).take 4 := by
  apply bigEndian_uint32
  rw [List.length_take, List.length_drop]
  omega

/-- Six words one behind the other are the payload that they were found in. -/
theorem payload_eq {e : EventReport} {payload : Bytes} (hlen : payload.length = 24)
    (h₀ : e.channel = wordAt payload 0) (h₁ : e.code.wire = wordAt payload 4)
    (h₂ : e.words = ⟨wordAt payload 8, wordAt payload 12, wordAt payload 16, wordAt payload 20⟩) :
    e.payload = payload := by
  have hsix : payload = payload.take 4 ++ (payload.drop 4).take 4 ++ (payload.drop 8).take 4 ++
      (payload.drop 12).take 4 ++ (payload.drop 16).take 4 ++ (payload.drop 20).take 4 := by
    rw [← List.take_add, ← List.take_add, ← List.take_add, ← List.take_add, ← List.take_add]
    exact (List.take_of_length_le (Nat.le_of_eq hlen)).symm
  have hword : ∀ i ∈ [0, 4, 8, 12, 16, 20], bigEndian 4 (wordAt payload i).toNat = (payload.drop i).take 4 := by
    intro i hi
    apply bigEndian_wordAt
    simp only [List.mem_cons, List.not_mem_nil, or_false] at hi
    omega
  simp only [List.forall_mem_cons] at hword
  obtain ⟨w₀, w₁, w₂, w₃, w₄, w₅, -⟩ := hword
  conv_rhs => rw [hsix]
  rw [EventReport.payload, h₀, h₁, h₂]
  simp only [List.flatMap_cons, List.flatMap_nil, w₀, w₁, w₂, w₃, w₄, w₅, List.drop_zero, List.append_nil,
    List.append_assoc]

theorem decode_verdict (payload : Bytes) :
    Verdict (Known payload) (fun e => ∀ t, WritesBack (e.encode t) payload) (decode payload) := by
  unfold decode
  split
  · next hlen => exact .refused _ fun hk => hlen hk.1
  · next hlen =>
    have hlen : payload.length = 24 := Classical.not_not.1 hlen
    have hword : (wordAt payload 4).toNat = ofBigEndian ((payload.drop 4).take 4) := by
      apply toNat_uint32_ofBigEndian
      rw [List.length_take, List.length_drop]
      omega
    dsimp only
    split
    · next c hc =>
      rw [EventCode.ofWire?_eq_some_iff] at hc
      refine .taken _ ⟨hlen, c, ?_⟩ fun t => ?_
      · rw [← hword, hc]
      · unfold encode
        rw [payload_eq hlen rfl hc.symm rfl]
        exact Header.encodePacket_writesBack _ payload
    · next hnone =>
      refine .refused _ fun hk => ?_
      obtain ⟨-, c, hc⟩ := hk
      rw [← hword] at hc
      rw [UInt32.toNat.inj hc, EventCode.ofWire?_wire] at hnone
      cases hnone

end EventReport

/-! ## The whole format -/

/-- Reading is exact: of packets, and of the payloads that a command, a condition or an event
may have. -/
theorem decode_exact :
    Accepts Header.decode Header.WellFormed Header.Repeats ∧
    (∀ (h : Header) (rate : Float),
      Accepts (StreamCommand.decode h · rate) StreamCommand.Known StreamCommand.InKeeping) ∧
    Accepts RxCode.decode RxCode.Known (fun payload c => ∀ t, WritesBack (c.encode t) payload) ∧
    Accepts EventReport.decode EventReport.Known (fun payload e => ∀ t, WritesBack (e.encode t) payload) :=
  ⟨.of_verdicts Header.decode_verdict, fun h rate => .of_verdicts (StreamCommand.decode_verdict h rate),
    .of_verdicts RxCode.decode_verdict, .of_verdicts EventReport.decode_verdict⟩

end RadioStream
