import RadioStream.Proofs.Acceptance
import RadioStream.Proofs.Sample
/-!
# Packing and unpacking

Samples are put over the start of a byte buffer and read back into a sample buffer. The
two lengths have nothing to do with each other, and neither need be a whole number of
samples. `pack_unpack` says what is written, that nothing else is touched, and that
reading undoes writing and writing undoes reading, as far as the lengths go.
-/

namespace RadioStream.WireFormat

/-! ## One sample -/

theorem bigEndian_ofTwo (a b : UInt8) : bigEndian 2 (ofTwo a b).toUInt16.toNat = [a, b] := by
  rw [ofTwo, UInt16.toUInt16_toInt16]
  exact bigEndian_uint16 rfl

theorem bigEndian_high (a : UInt8) : bigEndian 1 ((ofTwo a 0).toUInt16.toNat / 256) = [a] := by
  have ha := a.toNat_lt
  have hn : ofBigEndian [a, 0] = 256 * a.toNat := by simp [ofBigEndian]
  have hlt : 256 * a.toNat < 2 ^ 16 := by omega
  rw [ofTwo, UInt16.toUInt16_toInt16, hn, UInt16.toNat_ofNat_of_lt' hlt, Nat.mul_div_cancel_left _ (by decide)]
  simp [bigEndian]

/-- Bytes of one sample are written as they were read. -/
theorem flatMap_encode_decode_sample {f : WireFormat} {bs : Bytes} (h : bs.length = f.sampleBytes) :
    (f.decode bs).flatMap f.encode = bs := by
  cases f with
  | sc16 =>
    obtain ⟨a, b, c, d, rfl⟩ := List.length_eq_four.1 h
    have hx : decode sc16 [a, b, c, d] = [⟨ofTwo a b, ofTwo c d⟩] := by simp [decode]
    rw [hx, List.flatMap_singleton, encode, partBytes, partBytes, bigEndian_ofTwo, bigEndian_ofTwo]
    rfl
  | sc8 =>
    obtain ⟨a, b, rfl⟩ := List.length_eq_two.1 h
    have hx : decode sc8 [a, b] = [⟨ofTwo a 0, ofTwo b 0⟩] := by simp [decode]
    rw [hx, List.flatMap_singleton, encode, partBytes, partBytes, bigEndian_high, bigEndian_high]
    rfl

/-! ## Many samples -/

/-- The first sample of some bytes is read apart from the rest. -/
theorem decode_append {f : WireFormat} {bs : Bytes} (h : bs.length = f.sampleBytes) (rest : Bytes) :
    f.decode (bs ++ rest) = f.decode bs ++ f.decode rest := by
  cases f with
  | sc16 =>
    obtain ⟨a, b, c, d, rfl⟩ := List.length_eq_four.1 h
    simp [decode]
  | sc8 =>
    obtain ⟨a, b, rfl⟩ := List.length_eq_two.1 h
    simp [decode]

/-- Samples are written as they were read, but for bytes past the last whole one. -/
theorem flatMap_encode_take_decode (f : WireFormat) (bs : Bytes) {n : Nat} (h : n * f.sampleBytes ≤ bs.length) :
    ((f.decode bs).take n).flatMap f.encode = bs.take (n * f.sampleBytes) := by
  induction n generalizing bs with
  | zero => simp
  | succ n ih =>
    rw [Nat.succ_mul] at h
    have hhead : (bs.take f.sampleBytes).length = f.sampleBytes := by
      rw [List.length_take]
      omega
    have hone : (f.decode (bs.take f.sampleBytes)).length = 1 := by
      rw [f.length_decode, hhead, Nat.div_self f.sampleBytes_pos]
    have hrest : n * f.sampleBytes ≤ (bs.drop f.sampleBytes).length := by
      rw [List.length_drop]
      omega
    have hsplit := decode_append hhead (bs.drop f.sampleBytes)
    rw [List.take_append_drop] at hsplit
    rw [hsplit, List.take_append, hone, Nat.add_sub_cancel, List.flatMap_append,
      List.take_of_length_le (by omega), flatMap_encode_decode_sample hhead, ih _ hrest, Nat.succ_mul,
      Nat.add_comm (n * f.sampleBytes), List.take_add]

/-! ## Buffers -/

/-- As many samples as there are and as fit go over the start of the buffer. -/
theorem pack_eq (f : WireFormat) (xs : List (Iq Int16)) (buffer : Bytes) {n : Nat}
    (hn : n = min xs.length (buffer.length / f.sampleBytes)) :
    f.pack xs buffer =
      (n * f.sampleBytes, (xs.take n).flatMap f.encode ++ buffer.drop (n * f.sampleBytes)) := by
  have hl : ((xs.take n).flatMap f.encode).length = n * f.sampleBytes := by
    rw [f.length_flatMap_encode, List.length_take, hn, Nat.min_eq_left (Nat.min_le_left _ _)]
  subst hn
  rw [pack, splice_start]
  -- a host sample of sixteen-bit parts is the raw sample itself
  show (_, (xs.take _).flatMap f.encode ++ buffer.drop ((xs.take _).flatMap f.encode).length) = _
  rw [hl]

theorem length_take_decode (f : WireFormat) (bs : Bytes) {n : Nat} (hn : n ≤ bs.length / f.sampleBytes) :
    ((f.decode bs).take n).length = n := by
  rw [List.length_take, f.length_decode, Nat.min_eq_left hn]

theorem unpack_eq (f : WireFormat) (bs : Bytes) (out : List (Iq Int16)) {n : Nat}
    (hn : n = min out.length (bs.length / f.sampleBytes)) :
    f.unpack bs out = (n, (f.decode bs).take n ++ out.drop n) := by
  have hx : ((f.decode bs).take out.length).map (HostSample.ofRaw (σ := Iq Int16)) = (f.decode bs).take n := by
    rw [show (HostSample.ofRaw : Iq Int16 → Iq Int16) = id from rfl, List.map_id, hn, ← f.length_decode,
      ← List.take_take, List.take_length]
  rw [unpack, splice_start, hx, f.length_take_decode bs (hn.le.trans (Nat.min_le_right _ _))]

/-- Samples that were read are packed as the bytes that they were read from. -/
theorem pack_take_decode (f : WireFormat) (bs buffer : Bytes) {m n : Nat} (hm : m ≤ bs.length / f.sampleBytes)
    (hn : n = min m (buffer.length / f.sampleBytes)) :
    f.pack ((f.decode bs).take m) buffer =
      (n * f.sampleBytes, bs.take (n * f.sampleBytes) ++ buffer.drop (n * f.sampleBytes)) := by
  have hnm : n ≤ m := hn.le.trans (Nat.min_le_left _ _)
  have hbs : n * f.sampleBytes ≤ bs.length := (Nat.le_div_iff_mul_le f.sampleBytes_pos).1 (hnm.trans hm)
  rw [f.pack_eq _ buffer (n := n) (by rw [f.length_take_decode bs hm, hn]), List.take_take, Nat.min_eq_left hnm,
    f.flatMap_encode_take_decode bs hbs]

/-- Packing writes over the first bytes of a buffer, as many as it says, and unpacking over
the first samples; the rest is as it was. The bytes written give the first samples back, in
`sc8` without their low bytes, and packing what was unpacked from any bytes gives the whole
samples of them back. -/
theorem pack_unpack (f : WireFormat) (xs : List (Iq Int16)) (buffer : Bytes) :
    let count := min xs.length (buffer.length / f.sampleBytes)
    let packed := f.pack xs buffer
    packed.1 = count * f.sampleBytes ∧ packed.2.length = buffer.length ∧
      packed.2.drop packed.1 = buffer.drop packed.1 ∧
      (∀ out : List (Iq Int16),
        let n := min out.length count
        f.unpack (packed.2.take packed.1) out = (n, (xs.take n).map f.carried ++ out.drop n)) ∧
      ∀ (bs : Bytes) (out : List (Iq Int16)),
        let read := f.unpack bs out
        let n := min read.1 (buffer.length / f.sampleBytes)
        read.1 = min out.length (bs.length / f.sampleBytes) ∧ read.2.drop read.1 = out.drop read.1 ∧
          f.pack (read.2.take read.1) buffer =
            (n * f.sampleBytes, bs.take (n * f.sampleBytes) ++ buffer.drop (n * f.sampleBytes)) := by
  intro count packed
  have hcount : count * f.sampleBytes ≤ buffer.length :=
    le_trans (Nat.mul_le_mul_right _ (Nat.min_le_right _ _)) (Nat.div_mul_le_self _ _)
  have hpacked : packed = _ := f.pack_eq xs buffer rfl
  have hl : ((xs.take count).flatMap f.encode).length = count * f.sampleBytes := by
    rw [f.length_flatMap_encode, List.length_take, Nat.min_eq_left (Nat.min_le_left _ _)]
  rw [hpacked]
  refine ⟨rfl, ?_, ?_, fun out => ?_, fun bs out => ?_⟩
  · rw [List.length_append, hl, List.length_drop, Nat.add_sub_cancel' hcount]
  · exact List.drop_left' hl
  · rw [List.take_left' hl, unpack_eq f _ out rfl, f.decode_flatMap_encode, hl, Nat.mul_div_cancel _ f.sampleBytes_pos,
      ← List.map_take, List.take_take, Nat.min_eq_left (Nat.min_le_right _ _)]
  · have hm : min out.length (bs.length / f.sampleBytes) ≤ bs.length / f.sampleBytes := Nat.min_le_right _ _
    have hl := f.length_take_decode bs hm
    dsimp only
    rw [f.unpack_eq bs out rfl]
    refine ⟨rfl, List.drop_left' hl, ?_⟩
    dsimp only
    rw [List.take_left' hl]
    exact f.pack_take_decode bs buffer hm rfl

/-- The high bytes of a sample go into the first two bytes of five, and come back. -/
example : pack .sc8 [(⟨0x1234, -256⟩ : Iq Int16)] [9, 9, 9, 9, 9] = (2, [0x12, 0xff, 9, 9, 9]) ∧
    unpack .sc8 [0x12, 0xff] [(⟨1, 1⟩ : Iq Int16), ⟨2, 2⟩] = (1, [⟨0x1200, -256⟩, ⟨2, 2⟩]) := by decide

end RadioStream.WireFormat
