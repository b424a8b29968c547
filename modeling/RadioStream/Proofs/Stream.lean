import Mathlib.Data.List.Chain
import RadioStream.Proofs.Packet
/-!
# Streams of data packets

What the packets of a link say about the ticks of a channel. `sampleAt` looks up
the sample of a tick. A stream is `Gapless` from a tick if each packet starts where
the one before it stops; then the sample of a tick is found by counting
(`Gapless.sampleAt`).
-/

namespace RadioStream

/-- The sample that has a tick. -/
def sampleAt : List DataPacket → Nat → Option (Iq Int16)
  | [], _ => none
  | p :: ps, tick => if p.start ≤ tick ∧ tick < p.stop then p.samples[tick - p.start]? else sampleAt ps tick

/-- Each packet has a time and starts at the tick after the one before it. -/
def Gapless : Nat → List DataPacket → Prop
  | _, [] => True
  | tick, p :: ps => p.header.hasTime = true ∧ p.start = tick ∧ Gapless p.stop ps

instance decidableGapless : (tick : Nat) → (ps : List DataPacket) → Decidable (Gapless tick ps)
  | _, [] => .isTrue trivial
  | tick, p :: ps =>
    have := decidableGapless p.stop ps
    inferInstanceAs (Decidable (p.header.hasTime = true ∧ p.start = tick ∧ Gapless p.stop ps))

/-- Sequence numbers go up by one. -/
def Consecutive (ps : List DataPacket) : Prop :=
  ps.IsChain fun p q => q.header.sequence = p.header.sequence + 1

instance (ps : List DataPacket) : Decidable (Consecutive ps) :=
  inferInstanceAs (Decidable (ps.IsChain fun p q => q.header.sequence = p.header.sequence + 1))

theorem samplesOf_cons (p : DataPacket) (ps : List DataPacket) : samplesOf (p :: ps) = p.samples ++ samplesOf ps :=
  List.flatMap_cons

theorem gapless_append {tick : Nat} {ps qs : List DataPacket} :
    Gapless tick (ps ++ qs) ↔ Gapless tick ps ∧ Gapless (tick + (samplesOf ps).length) qs := by
  induction ps generalizing tick with
  | nil => simp [Gapless, samplesOf]
  | cons p ps ih =>
    simp only [List.cons_append, Gapless, samplesOf_cons, List.length_append]
    constructor
    · rintro ⟨ht, rfl, h⟩
      obtain ⟨h₁, h₂⟩ := ih.1 h
      rw [DataPacket.stop, Nat.add_assoc] at h₂
      exact ⟨⟨ht, rfl, h₁⟩, h₂⟩
    · rintro ⟨⟨ht, rfl, h₁⟩, h₂⟩
      rw [← Nat.add_assoc] at h₂
      exact ⟨ht, rfl, ih.2 ⟨h₁, h₂⟩⟩

/-- In a stream without gaps, the sample of a tick is found by counting. -/
theorem Gapless.sampleAt {tick : Nat} {ps : List DataPacket} (h : Gapless tick ps) (j : Nat) :
    sampleAt ps (tick + j) = (samplesOf ps)[j]? := by
  induction ps generalizing tick j with
  | nil => rfl
  | cons p ps ih =>
    obtain ⟨-, rfl, hr⟩ := h
    rw [RadioStream.sampleAt, samplesOf_cons]
    by_cases hj : j < p.samples.length
    · rw [if_pos ⟨by omega, by rw [DataPacket.stop]; omega⟩, Nat.add_sub_cancel_left, List.getElem?_append_left hj]
    · have he : p.start + j = p.stop + (j - p.samples.length) := by rw [DataPacket.stop]; omega
      rw [if_neg (by rw [DataPacket.stop]; omega), he, ih hr, List.getElem?_append_right (by omega)]

/-- The frames of a stream without gaps: data packets with consecutive sequence
numbers that follow each other from a tick on, and reports of the device in any
places. -/
structure Steady (format : WireFormat) (tick : Nat) (fs : List Bytes) : Prop where
  recognised : ∀ f ∈ fs, Incoming.ofFrame format f ≠ .malformed
  consecutive : Consecutive (packetsIn format fs)
  gapless : Gapless tick (packetsIn format fs)

theorem steady_iff {format : WireFormat} {tick : Nat} {fs : List Bytes} :
    Steady format tick fs ↔ (∀ f ∈ fs, Incoming.ofFrame format f ≠ .malformed) ∧
      Consecutive (packetsIn format fs) ∧ Gapless tick (packetsIn format fs) :=
  ⟨fun h => ⟨h.recognised, h.consecutive, h.gapless⟩, fun h => ⟨h.1, h.2.1, h.2.2⟩⟩

instance (format : WireFormat) (tick : Nat) (fs : List Bytes) : Decidable (Steady format tick fs) :=
  decidable_of_iff _ steady_iff.symm

theorem packetsIn_mono (format : WireFormat) {fs gs : List Bytes} (h : fs <+: gs) :
    packetsIn format fs <+: packetsIn format gs := by
  obtain ⟨hs, rfl⟩ := h
  rw [packetsIn_append]
  exact List.prefix_append _ _

theorem samplesOf_mono {ps qs : List DataPacket} (h : ps <+: qs) : samplesOf ps <+: samplesOf qs := by
  obtain ⟨rs, rfl⟩ := h
  rw [samplesOf_append]
  exact List.prefix_append _ _

theorem Consecutive.mono {ps qs : List DataPacket} (h : Consecutive qs) (hp : ps <+: qs) : Consecutive ps := by
  obtain ⟨rs, rfl⟩ := hp
  exact h.left_of_append

/-- The packet after the last one has the next sequence number. -/
theorem Consecutive.next {ps : List DataPacket} {p q : DataPacket} (h : Consecutive (ps ++ [q]))
    (hp : ps.getLast? = some p) : q.header.sequence = p.header.sequence + 1 := by
  rw [Consecutive, List.isChain_append] at h
  exact h.2.2 p hp q rfl

theorem Steady.mono {format : WireFormat} {tick : Nat} {fs gs : List Bytes} (h : Steady format tick gs)
    (hp : fs <+: gs) : Steady format tick fs where
  recognised f hf := h.recognised f (hp.subset hf)
  consecutive := h.consecutive.mono (packetsIn_mono format hp)
  gapless := by
    obtain ⟨rs, he⟩ := packetsIn_mono format hp
    have hg := h.gapless
    rw [← he] at hg
    exact (gapless_append.1 hg).1

/-! ## Streams of bursts -/

/-- Packets with times whose ticks go up, where a packet that begins no burst starts
where the one before it stops. -/
structure Bursts (ps : List DataPacket) : Prop where
  timed : ∀ p ∈ ps, p.header.hasTime = true
  ordered : ps.Pairwise fun p q => p.stop ≤ q.start
  joined : ps.IsChain fun p q => q.header.startOfBurst = false → q.start = p.stop

theorem bursts_iff {ps : List DataPacket} :
    Bursts ps ↔ (∀ p ∈ ps, p.header.hasTime = true) ∧ (ps.Pairwise fun p q => p.stop ≤ q.start) ∧
      ps.IsChain fun p q => q.header.startOfBurst = false → q.start = p.stop :=
  ⟨fun h => ⟨h.timed, h.ordered, h.joined⟩, fun h => ⟨h.1, h.2.1, h.2.2⟩⟩

instance (ps : List DataPacket) : Decidable (Bursts ps) := decidable_of_iff _ bursts_iff.symm

theorem Bursts.mono {ps qs : List DataPacket} (h : Bursts qs) (hp : ps <+: qs) : Bursts ps := by
  obtain ⟨rs, rfl⟩ := hp
  exact ⟨fun p hp => h.timed p (List.mem_append_left _ hp), (List.pairwise_append.1 h.ordered).1,
    h.joined.left_of_append⟩

theorem DataPacket.start_le_stop (p : DataPacket) : p.start ≤ p.stop := Nat.le_add_right _ _

theorem sampleAt_append {ps qs : List DataPacket} {tick : Nat}
    (h : ∀ p ∈ ps, ¬(p.start ≤ tick ∧ tick < p.stop)) : sampleAt (ps ++ qs) tick = sampleAt qs tick := by
  induction ps with
  | nil => rfl
  | cons p ps ih =>
    rw [List.cons_append, sampleAt, if_neg (h p List.mem_cons_self), ih fun q hq => h q (List.mem_cons_of_mem _ hq)]

/-- No packet has a tick that none covers. -/
theorem sampleAt_eq_none {ps : List DataPacket} {tick : Nat}
    (h : ∀ p ∈ ps, ¬(p.start ≤ tick ∧ tick < p.stop)) : sampleAt ps tick = none := by
  rw [← List.append_nil ps, sampleAt_append h]
  rfl

/-- More packets do not change the sample of a tick. -/
theorem sampleAt_mono {ps qs : List DataPacket} (h : ps <+: qs) {tick : Nat} {v : Iq Int16}
    (hv : sampleAt ps tick = some v) : sampleAt qs tick = some v := by
  obtain ⟨rs, rfl⟩ := h
  induction ps with
  | nil => cases hv
  | cons p ps ih =>
    rw [List.cons_append, sampleAt]
    rw [sampleAt] at hv
    split
    · next hc => rwa [if_pos hc] at hv
    · next hc => exact ih (by rwa [if_neg hc] at hv)

/-- The last packet of a stream has the ticks from its start on. -/
theorem Bursts.sampleAt_last {ps : List DataPacket} {p : DataPacket} (h : Bursts (ps ++ [p])) {j : Nat}
    (hj : j < p.samples.length) : sampleAt (ps ++ [p]) (p.start + j) = p.samples[j]? := by
  rw [sampleAt_append, sampleAt, if_pos ⟨by omega, by rw [DataPacket.stop]; omega⟩, Nat.add_sub_cancel_left]
  intro q hq hc
  have := (List.pairwise_append.1 h.ordered).2.2 q hq p List.mem_cons_self
  omega

/-- Nothing has a tick between two packets. -/
theorem Bursts.sampleAt_gap {ps qs : List DataPacket} {p q : DataPacket} (h : Bursts (ps ++ p :: q :: qs)) {tick : Nat}
    (hp : p.stop ≤ tick) (hq : tick < q.start) : sampleAt (ps ++ p :: q :: qs) tick = none := by
  obtain ⟨-, hpq, hbefore⟩ := List.pairwise_append.1 h.ordered
  obtain ⟨-, hqs⟩ := List.pairwise_cons.1 hpq
  obtain ⟨hafter, -⟩ := List.pairwise_cons.1 hqs
  have hle := p.start_le_stop
  have hle' := q.start_le_stop
  apply sampleAt_eq_none
  -- every packet is one of the two, or before the first, or after the second
  intro r hr hc
  rcases List.mem_append.1 hr with hr | hr
  · have := hbefore r hr p List.mem_cons_self
    omega
  · rcases List.mem_cons.1 hr with rfl | hr
    · omega
    · rcases List.mem_cons.1 hr with rfl | hr
      · omega
      · have := hafter r hr
        omega

end RadioStream
