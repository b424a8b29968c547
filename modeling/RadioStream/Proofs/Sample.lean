import Mathlib.Data.List.Basic
import Mathlib.Data.Nat.Bitwise
import RadioStream.Sample
/-!
# Samples on the wire and back

A sample takes the same number of bytes whatever its value, so reading commutes
with dropping whole samples (`decode_drop`). What is read back from written
samples is `WireFormat.carried` of them (`decode_flatMap_encode`): the samples
themselves in `sc16`, their high bytes in `sc8`.
-/

namespace RadioStream.WireFormat

/-- A sixteen-bit part with its low byte cleared. -/
def highByte (x : Int16) : Int16 := x &&& 0xff00

/-- The sample that arrives when a sample is sent. -/
def carried : WireFormat → Iq Int16 → Iq Int16
  | sc16, x => x
  | sc8, x => ⟨highByte x.re, highByte x.im⟩

/-! ## One sample -/

theorem ofTwo_bytes (x : Int16) :
    ofTwo (UInt8.ofNat (x.toUInt16.toNat / 256)) (UInt8.ofNat x.toUInt16.toNat) = x := by
  have h := UInt16.toNat_lt x.toUInt16
  have e : 256 * (x.toUInt16.toNat / 256 % 256) + x.toUInt16.toNat % 256 = x.toUInt16.toNat := by omega
  simp only [ofTwo, ofBigEndian, List.foldl_cons, List.foldl_nil, UInt8.toNat_ofNat']
  rw [Nat.mul_zero, Nat.zero_add, e, UInt16.ofNat_toNat, Int16.toInt16_toUInt16]

/-- Masking the low byte is rounding down to a multiple of 256. -/
theorem and_high_byte (n : Nat) (h : n < 2 ^ 16) : n &&& 0xff00 = 256 * (n / 256) := by
  apply Nat.eq_of_testBit_eq
  intro i
  rw [Nat.testBit_and, show (0xff00 : Nat) = 2 ^ 8 * (2 ^ 8 - 1) by decide, Nat.testBit_two_pow_mul,
    Nat.testBit_two_pow_sub_one, show (256 : Nat) = 2 ^ 8 by decide, Nat.testBit_two_pow_mul,
    Nat.testBit_div_two_pow]
  by_cases hi : 8 ≤ i
  · by_cases h16 : 16 ≤ i
    · have hn := Nat.testBit_lt_two_pow (lt_of_lt_of_le h (Nat.pow_le_pow_right (by decide) h16))
      simp [hi, hn]
    · simp [hi, show i - 8 < 8 by omega]
  · simp [hi]

theorem ofTwo_high (x : Int16) : ofTwo (UInt8.ofNat (x.toUInt16.toNat / 256)) 0 = highByte x := by
  have h := UInt16.toNat_lt x.toUInt16
  have e : 256 * (x.toUInt16.toNat / 256 % 256) = x.toUInt16.toNat &&& 0xff00 := by
    rw [and_high_byte _ h]; omega
  simp only [ofTwo, ofBigEndian, List.foldl_cons, List.foldl_nil, UInt8.toNat_ofNat', UInt8.toNat_zero]
  rw [Nat.mul_zero, Nat.zero_add, Nat.add_zero, e, UInt16.ofNat_and, UInt16.toInt16_and, UInt16.ofNat_toNat,
    Int16.toInt16_toUInt16]
  rfl

theorem decode_encode_append (f : WireFormat) (x : Iq Int16) (rest : Bytes) :
    f.decode (f.encode x ++ rest) = f.carried x :: f.decode rest := by
  cases f with
  | sc16 =>
    show (⟨ofTwo _ _, ofTwo _ _⟩ : Iq Int16) :: decode sc16 rest = _
    rw [ofTwo_bytes, ofTwo_bytes]
    rfl
  | sc8 =>
    show (⟨ofTwo _ 0, ofTwo _ 0⟩ : Iq Int16) :: decode sc8 rest = _
    rw [ofTwo_high, ofTwo_high]
    rfl

/-! ## Many samples -/

theorem decode_short {f : WireFormat} {bs : Bytes} (h : bs.length < f.sampleBytes) : f.decode bs = [] := by
  rw [decode.eq_3]
  · rintro a b c d rest rfl rfl
    simp only [sampleBytes, List.length_cons] at h
    omega
  · rintro a b rest rfl rfl
    simp only [sampleBytes, List.length_cons] at h
    omega

/-- Bytes that hold a sample are read one sample at a time. -/
theorem exists_decode_cons {f : WireFormat} {bs : Bytes} (h : f.sampleBytes ≤ bs.length) :
    ∃ x, f.decode bs = x :: f.decode (bs.drop f.sampleBytes) := by
  cases f with
  | sc16 => match bs, h with
    | a :: b :: c :: d :: rest, _ => exact ⟨_, rfl⟩
  | sc8 => match bs, h with
    | a :: b :: rest, _ => exact ⟨_, rfl⟩

theorem length_decode (f : WireFormat) (bs : Bytes) : (f.decode bs).length = bs.length / f.sampleBytes := by
  have hp := f.sampleBytes_pos
  induction h : bs.length using Nat.strong_induction_on generalizing bs with
  | _ n ih =>
    by_cases hb : bs.length < f.sampleBytes
    · rw [decode_short hb, List.length_nil, Nat.div_eq_of_lt (h ▸ hb)]
    · obtain ⟨x, hx⟩ := exists_decode_cons (Nat.le_of_not_lt hb)
      have hl : (bs.drop f.sampleBytes).length = n - f.sampleBytes := by rw [List.length_drop, h]
      rw [hx, List.length_cons, ih _ (by omega) _ hl, Nat.div_eq_sub_div (a := n) hp (by omega)]

theorem decode_drop (f : WireFormat) (bs : Bytes) (k : Nat) :
    f.decode (bs.drop (k * f.sampleBytes)) = (f.decode bs).drop k := by
  induction k generalizing bs with
  | zero => simp
  | succ k ih =>
    rw [Nat.succ_mul, Nat.add_comm, ← List.drop_drop, ih]
    by_cases hb : bs.length < f.sampleBytes
    · have hd : (bs.drop f.sampleBytes).length < f.sampleBytes := by rw [List.length_drop]; omega
      rw [decode_short hb, decode_short hd, List.drop_nil, List.drop_nil]
    · obtain ⟨x, hx⟩ := exists_decode_cons (Nat.le_of_not_lt hb)
      rw [hx, List.drop_succ_cons]

/-- What is read back from written samples. -/
theorem decode_flatMap_encode (f : WireFormat) (xs : List (Iq Int16)) :
    f.decode (xs.flatMap f.encode) = xs.map f.carried := by
  induction xs with
  | nil => exact decode_short f.sampleBytes_pos
  | cons x xs ih => rw [List.flatMap_cons, decode_encode_append, ih, List.map_cons]

theorem length_flatMap_encode (f : WireFormat) (xs : List (Iq Int16)) :
    (xs.flatMap f.encode).length = xs.length * f.sampleBytes := by
  induction xs with
  | nil => simp
  | cons x xs ih => rw [List.flatMap_cons, List.length_append, ih, f.length_encode, List.length_cons, Nat.succ_mul,
      Nat.add_comm]

end RadioStream.WireFormat
