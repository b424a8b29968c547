import Mathlib.Algebra.Order.Floor.Ring
import Mathlib.Algebra.Ring.Parity
import Mathlib.Data.Rat.Floor
import Mathlib.Tactic.FieldSimp
import Mathlib.Tactic.Linarith
import Mathlib.Tactic.LinearCombination
import Mathlib.Tactic.NormNum
import Mathlib.Tactic.Ring
import RadioStream.Proofs.RoundTrip
/-!
# Ticks there and back

A tick becomes whole seconds and a fraction, and comes back as the sum of two roundings.
Here both ways are taken without rounding errors, over the rational numbers. The whole
seconds and the fraction add up to the tick, so their roundings differ from it only where
both end in half a tick: then both are rounded up, and the tick after it comes back
(`toTicks_ofTicks`). No tick slips in this way at a whole rate, or at any other whose
denominator is odd, or at one of no more than half a tick a second; at every other rate some
tick does (`slip_eq_zero_iff`).

The seconds fit sixty-four bits up to `2 ^ 63` of them (`seconds_ofTicks_lt_iff`).
-/

namespace RadioStream

/-! ## Numbers without rounding errors -/

namespace Exact

/-- The nearest whole number, a half away from zero. -/
def nearest (x : ℚ) : ℤ := if 0 ≤ x then ⌊x + 1 / 2⌋ else ⌈x - 1 / 2⌉

/-- The number without its fraction. -/
def whole (x : ℚ) : ℤ := if 0 ≤ x then ⌊x⌋ else ⌈x⌉

/-- The end of the range of sixty-four bits for a number past it. -/
def bound (n : ℤ) : ℤ := max (-2 ^ 63) (min n (2 ^ 63 - 1))

end Exact

/-- Rational numbers. As with doubles, whole numbers go to and fro by sixty-four bits. -/
instance : Scalar ℚ where
  ofInt n := (Int64.ofInt n).toInt
  floor x := ⌊x⌋
  round x := Exact.nearest x
  toInt x := Exact.bound (Exact.whole x)

namespace Exact

theorem ofInt_eq {n : ℤ} (h₀ : 0 ≤ n) (h : n < 2 ^ 63) : (Scalar.ofInt n : ℚ) = n := by
  have hn : (Int64.ofInt n).toInt = n :=
    Int64.toInt_ofInt_of_le (by omega) (by omega)
  show (((Int64.ofInt n).toInt : ℤ) : ℚ) = n
  rw [hn]

theorem toInt_eq (n : ℤ) : Scalar.toInt (n : ℚ) = bound n := by
  show bound (whole (n : ℚ)) = bound n
  rw [whole, Int.floor_intCast, Int.ceil_intCast, ite_self]

theorem bound_eq {n : ℤ} (h₀ : 0 ≤ n) (h : n < 2 ^ 63) : bound n = n := by
  unfold bound
  omega

/-- Two numbers that add up to a whole one: their roundings do too, unless both end in a
half, which is rounded up twice. -/
theorem nearest_add_nearest {x y : ℚ} {t : ℤ} (hx : 0 ≤ x) (hy : 0 ≤ y) (h : x + y = t) :
    nearest x + nearest y = t + if Int.fract x = 1 / 2 then 1 else 0 := by
  have hy' : y + 1 / 2 = t + -(x - 1 / 2) := by rw [← h]; ring
  have hx' : x + 1 / 2 = x - 1 / 2 + 1 := by ring
  rw [nearest, nearest, if_pos hx, if_pos hy, hy', hx', Int.floor_intCast_add, Int.floor_neg, Int.floor_add_one]
  -- the half below `x` is whole just where `x` ends in a half
  have hhalf : Int.fract x = 1 / 2 ↔ x - 1 / 2 ∈ Set.range ((↑) : ℤ → ℚ) := by
    rw [Int.fract_eq_iff]
    constructor
    · rintro ⟨-, -, n, hn⟩
      exact ⟨n, hn.symm⟩
    · rintro ⟨n, hn⟩
      exact ⟨by norm_num, by norm_num, n, hn.symm⟩
  by_cases hf : Int.fract x = 1 / 2
  · obtain ⟨n, hn⟩ := hhalf.1 hf
    rw [if_pos hf, ← hn, Int.floor_intCast, Int.ceil_intCast]
    ring
  · rw [if_neg hf, (Int.ceil_eq_floor_add_one_iff_notMem _).2 (mt hhalf.2 hf)]
    ring

theorem nearest_nonneg {x : ℚ} (hx : 0 ≤ x) : 0 ≤ nearest x := by
  rw [nearest, if_pos hx]
  exact Int.floor_nonneg.2 (by linarith)

/-- Rounding stays below a whole number. -/
theorem nearest_le {x : ℚ} {n : ℤ} (hx : 0 ≤ x) (h : x ≤ n) : nearest x ≤ n := by
  rw [nearest, if_pos hx, ← Int.lt_add_one_iff, Int.floor_lt]
  push_cast
  linarith

end Exact

/-! ## There and back -/

/-- By how much a tick slips at a rate: by one if the whole seconds of its instant end in half
a tick. -/
def slip (rate : ℚ) (tick : ℤ) : ℤ := if Int.fract (⌊tick / rate⌋ * rate) = 1 / 2 then 1 else 0

namespace Instant

variable {r : ℚ} {t : ℤ}

theorem ofParts_eq (seconds : ℤ) (x : ℚ) : ofParts seconds x = ⟨seconds + Exact.bound ⌊x⌋, Int.fract x⟩ := by
  show Instant.mk (seconds + Scalar.toInt ((⌊x⌋ : ℤ) : ℚ)) (x - ⌊x⌋) = _
  rw [Exact.toInt_eq]
  rfl

theorem ofTicks_eq_ofParts (h₀ : 0 ≤ t) (ht : t < 2 ^ 63) :
    ofTicks t r = ofParts (Exact.bound ⌊t / r⌋) ((t - Scalar.ofInt (Exact.bound ⌊t / r⌋) * r) / r) := by
  show ofParts (Scalar.toInt ((⌊Scalar.ofInt t / r⌋ : ℤ) : ℚ))
    ((Scalar.ofInt t - Scalar.ofInt (Scalar.toInt ((⌊Scalar.ofInt t / r⌋ : ℤ) : ℚ)) * r) / r) = _
  rw [Exact.toInt_eq, Exact.ofInt_eq h₀ ht]

theorem toTicks_eq (i : Instant ℚ) (h₀ : 0 ≤ i.seconds) (hs : i.seconds < 2 ^ 63) (rate : ℚ) :
    i.toTicks rate =
      Exact.bound (Exact.nearest (i.seconds * rate)) + Exact.bound (Exact.nearest (i.fraction * rate)) := by
  show Scalar.toInt ((Exact.nearest (Scalar.ofInt i.seconds * rate) : ℤ) : ℚ) +
    Scalar.toInt ((Exact.nearest (i.fraction * rate) : ℤ) : ℚ) = _
  rw [Exact.toInt_eq, Exact.toInt_eq, Exact.ofInt_eq h₀ hs]

/-- The seconds of a tick, and the rest of them. -/
theorem ofTicks_eq (hr : 0 < r) (h₀ : 0 ≤ t) (ht : t < 2 ^ 63) (hs : t / r < 2 ^ 63) :
    ofTicks t r = ⟨⌊t / r⌋, Int.fract (t / r)⟩ := by
  have hnn : 0 ≤ ⌊t / r⌋ := Int.floor_nonneg.2 (div_nonneg (by exact_mod_cast h₀) hr.le)
  have hlt : ⌊t / r⌋ < 2 ^ 63 := Int.floor_lt.2 (by push_cast; exact hs)
  have hrest : (t - ⌊t / r⌋ * r) / r = Int.fract (t / r) := by
    rw [Int.fract]
    field_simp
  rw [ofTicks_eq_ofParts h₀ ht, Exact.bound_eq hnn hlt, Exact.ofInt_eq hnn hlt, hrest, ofParts_eq, Int.floor_fract,
    Int.fract_fract, Exact.bound_eq le_rfl (by decide), add_zero]

/-- The seconds of a tick fit sixty-four bits exactly if there are fewer than `2 ^ 63` of them. -/
theorem seconds_ofTicks_lt_iff (hr : 0 < r) (h₀ : 0 ≤ t) (ht : t < 2 ^ 63) :
    (ofTicks t r).seconds < 2 ^ 63 ↔ t / r < 2 ^ 63 := by
  constructor
  · -- past the range, what is left of the seconds is carried over
    intro h
    by_contra hs
    have hle : (2 ^ 63 : ℤ) ≤ ⌊t / r⌋ := Int.le_floor.2 (by push_cast; exact not_lt.1 hs)
    have hb : Exact.bound ⌊t / r⌋ = 2 ^ 63 - 1 := by
      unfold Exact.bound
      omega
    have hone : 1 ≤ ⌊(t - Scalar.ofInt (2 ^ 63 - 1 : ℤ) * r) / r⌋ := by
      rw [Exact.ofInt_eq (by decide) (by decide), sub_div, mul_div_cancel_right₀ _ hr.ne', Int.le_floor]
      push_cast
      linarith
    rw [ofTicks_eq_ofParts h₀ ht, hb, ofParts_eq] at h
    unfold Exact.bound at h
    dsimp only at h
    omega
  · intro hs
    rw [ofTicks_eq hr h₀ ht hs, Int.floor_lt]
    push_cast
    exact hs

/-- The tick that comes back is the one that went, or it slips by one. -/
theorem toTicks_ofTicks (hr : 0 < r) (h₀ : 0 ≤ t) (ht : t < 2 ^ 63) (hs : t / r < 2 ^ 63) :
    (ofTicks t r).toTicks r = t + slip r t := by
  have hq : (0 : ℚ) ≤ t / r := div_nonneg (by exact_mod_cast h₀) hr.le
  have hsum : ⌊t / r⌋ * r + Int.fract (t / r) * r = t := by
    rw [← add_mul, Int.floor_add_fract, div_mul_cancel₀ _ hr.ne']
  have hx : 0 ≤ ⌊t / r⌋ * r := mul_nonneg (by exact_mod_cast Int.floor_nonneg.2 hq) hr.le
  have hy : 0 ≤ Int.fract (t / r) * r := mul_nonneg (Int.fract_nonneg _) hr.le
  -- neither part is rounded past the range
  have hbound {x : ℚ} (h : 0 ≤ x) (hle : x ≤ t) : Exact.bound (Exact.nearest x) = Exact.nearest x :=
    Exact.bound_eq (Exact.nearest_nonneg h) ((Exact.nearest_le h hle).trans_lt ht)
  rw [ofTicks_eq hr h₀ ht hs, toTicks_eq _ (Int.floor_nonneg.2 hq) (Int.floor_lt.2 (by push_cast; exact hs))]
  dsimp only
  rw [hbound hx (by linarith), hbound hy (by linarith), Exact.nearest_add_nearest hx hy hsum, slip]

end Instant

/-! ## Rates at which no tick slips -/

theorem slip_eq_zero_or_one (r : ℚ) (t : ℤ) : slip r t = 0 ∨ slip r t = 1 := by
  unfold slip
  split
  · exact .inr rfl
  · exact .inl rfl

/-- A multiple of a number with an odd denominator does not end in a half. -/
theorem fract_mul_ne_half {r : ℚ} (hr : Odd r.den) (n : ℤ) : Int.fract (n * r) ≠ 1 / 2 := by
  intro h
  obtain ⟨-, -, m, hm⟩ := Int.fract_eq_iff.1 h
  -- twice the multiple is odd, and a multiple of the denominator
  have he : 2 * n * r.num = (2 * m + 1) * r.den := by
    have hq : 2 * (n : ℚ) * r.num = (2 * m + 1) * r.den := by
      rw [← Rat.mul_den_eq_num r]
      linear_combination 2 * (r.den : ℚ) * hm
    exact_mod_cast hq
  have hodd : Odd ((2 * m + 1) * (r.den : ℤ)) := (odd_two_mul_add_one m).mul (by exact_mod_cast hr)
  rw [← he, mul_assoc] at hodd
  exact (Int.not_odd_iff_even.2 (even_two_mul _)) hodd

theorem slip_of_odd {r : ℚ} (hr : Odd r.den) (t : ℤ) : slip r t = 0 :=
  if_neg (fract_mul_ne_half hr _)

theorem slip_of_le_half {r : ℚ} (hr : 0 < r) (hle : r ≤ 1 / 2) (t : ℤ) : slip r t = 0 := by
  refine if_neg fun h => ?_
  obtain ⟨-, -, m, hm⟩ := Int.fract_eq_iff.1 h
  have hrest : t - ⌊t / r⌋ * r = Int.fract (t / r) * r := by
    rw [Int.fract, sub_mul, div_mul_cancel₀ _ hr.ne']
  have h₀ : 0 ≤ Int.fract (t / r) * r := mul_nonneg (Int.fract_nonneg _) hr.le
  have h₁ : Int.fract (t / r) * r < r := mul_lt_of_lt_one_left hr (Int.fract_lt_one _)
  -- what is left of a second is less than half a tick, so the tick lies between two ticks
  have hlow : (m : ℚ) < t := by linarith
  have hhigh : (t : ℚ) < m + 1 := by linarith
  norm_cast at hlow hhigh
  omega

/-- At any other rate a tick slips: the one after half the numerator. -/
theorem exists_slip {r : ℚ} (hden : Even r.den) (hr : 1 / 2 < r) : ∃ t : ℤ, 0 ≤ t ∧ slip r t = 1 := by
  obtain ⟨m, hm⟩ := hden
  have hm₀ : 0 < m := by
    have := r.den_pos
    omega
  obtain ⟨k, hk⟩ : Odd r.num := by
    refine Int.not_even_iff_odd.1 fun he => ?_
    have h2 : 2 ∣ Nat.gcd r.num.natAbs r.den :=
      Nat.dvd_gcd (Int.natAbs_dvd_natAbs.2 he.two_dvd) ⟨m, by omega⟩
    rw [r.reduced] at h2
    omega
  have hmr : m * r = k + 1 / 2 := by
    have hnum := Rat.mul_den_eq_num r
    rw [hk, hm] at hnum
    push_cast at hnum
    linarith
  have hmq : (0 : ℚ) < m := by exact_mod_cast hm₀
  have hk₀ : 0 ≤ k := by
    have hlt : (0 : ℚ) < k + 1 / 2 := hmr ▸ mul_pos hmq (by linarith)
    have hgt : (-1 : ℚ) < k := by linarith
    norm_cast at hgt
  have hfloor : ⌊((k + 1 : ℤ) : ℚ) / r⌋ = m := by
    rw [Int.floor_eq_iff, le_div_iff₀ (by linarith), div_lt_iff₀ (by linarith)]
    push_cast
    constructor <;> linarith
  refine ⟨k + 1, by omega, if_pos ?_⟩
  rw [hfloor, Int.fract_eq_iff]
  exact ⟨by norm_num, by norm_num, k, by push_cast; linarith⟩

/-- Every tick comes back exactly if the denominator of the rate is odd or the rate is no
more than half a tick a second. -/
theorem slip_eq_zero_iff {r : ℚ} (hr : 0 < r) :
    (∀ t : ℤ, 0 ≤ t → slip r t = 0) ↔ Odd r.den ∨ r ≤ 1 / 2 := by
  constructor
  · intro h
    by_contra hn
    obtain ⟨hden, hhalf⟩ := not_or.1 hn
    obtain ⟨t, ht, hs⟩ := exists_slip (Nat.not_odd_iff_even.1 hden) (not_le.1 hhalf)
    exact absurd (hs.symm.trans (h t ht)) one_ne_zero
  · rintro (hodd | hhalf) t -
    · exact slip_of_odd hodd t
    · exact slip_of_le_half hr hhalf t

/-! ## Commands and packets -/

theorem UInt64.toInt_toInt64 {w : UInt64} (h : w.toNat < 2 ^ 63) : w.toInt64.toInt = w.toNat := by
  have hw : w.toInt64 = Int64.ofInt w.toNat := by
    conv_lhs => rw [← UInt64.ofNat_toNat (x := w)]
    rfl
  rw [hw, Int64.toInt_ofInt_of_le (by omega) (by omega)]

namespace Instant

variable {r : ℚ}

/-- A start that travels as a tick starts at this tick, or slips by one. -/
theorem startTick_ofCounter {w : UInt64} (hr : 0 < r) (hw : w.toNat < 2 ^ 63)
    (hs : (ofTicks w.toNat r).seconds < 2 ^ 63) :
    (((ofCounter w r).startTick r).toNat : ℤ) = w.toNat + slip r w.toNat := by
  have ht : ((w.toNat : ℤ)) < 2 ^ 63 := by exact_mod_cast hw
  have h := toTicks_ofTicks hr (Int.natCast_nonneg _) ht ((seconds_ofTicks_lt_iff hr (Int.natCast_nonneg _) ht).1 hs)
  rw [startTick, ofCounter, UInt64.toInt_toInt64 hw, h, UInt64.toNat_ofNat']
  rcases slip_eq_zero_or_one r w.toNat with hz | hz <;> rw [hz] <;> omega

end Instant

/-- The tick of what a packet has still to hand out is that of its time, or one before it. -/
theorem Held.toTicks_timeAt {r : ℚ} {h : Header} {offset : ℕ} (hr : 0 < r) (ht : h.timestamp.toNat + offset < 2 ^ 63)
    (hs : (Instant.ofTicks (h.timestamp.toNat + offset : ℕ) r).seconds < 2 ^ 63) :
    (timeAt h offset r).toTicks r = (h.timestamp.toNat + offset : ℕ) + slip r (h.timestamp.toNat + offset : ℕ) := by
  have ht' : ((h.timestamp.toNat + offset : ℕ) : ℤ) < 2 ^ 63 := by exact_mod_cast ht
  rw [timeAt, UInt64.toInt_toInt64 (by omega), ← Int.natCast_add]
  exact Instant.toTicks_ofTicks hr (Int.natCast_nonneg _) ht'
    ((Instant.seconds_ofTicks_lt_iff hr (Int.natCast_nonneg _) ht').1 hs)

/-- A command put off comes back with its tick in the header. The start that is counted from it
may have slipped. -/
theorem StreamCommand.startTick_decode (c : StreamCommand ℚ) {r : ℚ} (hc : c.immediate = false) (hr : 0 < r)
    (ht : (c.time.startTick r).toNat < 2 ^ 63)
    (hs : (Instant.ofTicks (c.time.startTick r).toNat r).seconds < 2 ^ 63) :
    ReadsBack (c.encode r) 28 fun g p => g.timestamp? = some (c.time.startTick r) ∧
      ∃ d, decode g p r = .ok d ∧ d.mode = c.mode ∧ d.samples = c.samples ∧ d.immediate = false ∧
        ((d.time.startTick r).toNat : ℤ) = (c.time.startTick r).toNat + slip r (c.time.startTick r).toNat := by
  have hh : c.header r = Header.stamped { kind := .command } (some (c.time.startTick r)) := by
    rw [header, hc]
    rfl
  refine (c.header r).encodePacket_readsBack_of c.length_payload (by decide) ⟨?_, ?_⟩
  · rw [hh]
    exact (Header.sized_stamped .command c.payload _).2
  · refine ⟨_, c.decode_payload_eq _ r, rfl, rfl, ?_, ?_⟩
    · rw [hc, hh]
      rfl
    · rw [hh]
      exact Instant.startTick_ofCounter hr ht hs

/-- Ticks there and back, where the seconds fit sixty-four bits: a tick becomes an instant and
comes back, a command put off crosses a link, and a packet is given its time. The tick is then
the same or the one after it, and at which rates it is the same for every tick is told by the
denominator of the rate. -/
theorem ticks_restored {r : ℚ} (hr : 0 < r) :
    (∀ t : ℤ, 0 ≤ t → t < 2 ^ 63 → (Instant.ofTicks t r).seconds < 2 ^ 63 →
      (Instant.ofTicks t r).toTicks r = t + slip r t) ∧
    ((∀ t : ℤ, 0 ≤ t → slip r t = 0) ↔ Odd r.den ∨ r ≤ 1 / 2) ∧
    (∀ c : StreamCommand ℚ, c.immediate = false → (c.time.startTick r).toNat < 2 ^ 63 →
      (Instant.ofTicks (c.time.startTick r).toNat r).seconds < 2 ^ 63 →
      ReadsBack (c.encode r) 28 fun g p => g.timestamp? = some (c.time.startTick r) ∧
        ∃ d, StreamCommand.decode g p r = .ok d ∧ d.mode = c.mode ∧ d.samples = c.samples ∧ d.immediate = false ∧
          ((d.time.startTick r).toNat : ℤ) = (c.time.startTick r).toNat + slip r (c.time.startTick r).toNat) ∧
    ∀ (h : Header) (offset : ℕ), h.timestamp.toNat + offset < 2 ^ 63 →
      (Instant.ofTicks (h.timestamp.toNat + offset : ℕ) r).seconds < 2 ^ 63 →
      (Held.timeAt h offset r).toTicks r = (h.timestamp.toNat + offset : ℕ) + slip r (h.timestamp.toNat + offset : ℕ) :=
  ⟨fun _ h₀ ht hs => Instant.toTicks_ofTicks hr h₀ ht ((Instant.seconds_ofTicks_lt_iff hr h₀ ht).1 hs),
    slip_eq_zero_iff hr,
    fun c hc ht hs => c.startTick_decode hc hr ht hs,
    fun _ _ ht hs => Held.toTicks_timeAt hr ht hs⟩

/-- At one and a half ticks a second the second tick comes back as the third, and a command for
it starts there. -/
theorem ticks_restored_slip :
    (0 : ℚ) < 3 / 2 ∧ (Instant.ofTicks 2 (3 / 2 : ℚ)).seconds < 2 ^ 63 ∧
    (Instant.ofTicks 2 (3 / 2 : ℚ)).toTicks (3 / 2) = 3 ∧
    ReadsBack (StreamCommand.encode ⟨.samplesAndDone, 4, false, ⟨1, 0⟩⟩ (3 / 2 : ℚ)) 28 fun g p =>
      g.timestamp? = some 2 ∧ ∃ d : StreamCommand ℚ, StreamCommand.decode g p (3 / 2) = .ok d ∧
        d.mode = .samplesAndDone ∧
        d.samples = 4 ∧ d.immediate = false ∧ ((d.time.startTick (3 / 2)).toNat : ℤ) = 3 := by
  have hr : (0 : ℚ) < 3 / 2 := by decide +kernel
  have hs : (Instant.ofTicks 2 (3 / 2 : ℚ)).seconds < 2 ^ 63 := by decide +kernel
  have hslip : slip (3 / 2) 2 = 1 := by decide +kernel
  have hk : Instant.startTick ⟨1, 0⟩ (3 / 2 : ℚ) = 2 := by decide +kernel
  refine ⟨hr, hs, ?_, ?_⟩
  · rw [(ticks_restored hr).1 2 (by decide) (by decide) hs, hslip]
    rfl
  · have h := (ticks_restored hr).2.2.1 ⟨.samplesAndDone, 4, false, ⟨1, 0⟩⟩ rfl
      (by rw [hk]; decide) (by rw [hk]; exact hs)
    have htwo : ((2 : UInt64).toNat : ℤ) = 2 := rfl
    simpa only [hk, htwo, hslip, Int.reduceAdd] using h

end RadioStream
