import RadioStream.Proofs.Lists
import RadioStream.Proofs.Stream
import RadioStream.Sim.Ramp
/-!
# Packets for counts of samples

The packets that carry given counts of samples, one count after the other, are known
beforehand: the counts are cut into `portions`, and `burstPackets` are the packets of
these sizes from a tick on. `Delivered` says what the host sees of them.
-/

namespace RadioStream.Sim

/-! ## Sizes -/

/-- A count of samples in packets of at most `most`: all but the last are full. No
samples make an empty packet. -/
def portions (most n : Nat) : List Nat :=
  List.replicate ((n - 1) / most) most ++ [n - (n - 1) / most * most]

/-- The sizes of the packets for some counts. No packet has samples of two counts. -/
def sizes (most : Nat) (counts : List Nat) : List Nat := counts.flatMap (portions most)

section Sizes

variable {most n : Nat}

theorem portions_last (hmost : 0 < most) (h : n ≤ most) : portions most n = [n] := by
  have hd : (n - 1) / most = 0 := Nat.div_eq_of_lt (by omega)
  rw [portions, hd, Nat.zero_mul]
  rfl

theorem portions_more (hmost : 0 < most) (h : most < n) : portions most n = most :: portions most (n - most) := by
  have hd : (n - 1) / most = (n - most - 1) / most + 1 := by
    rw [← Nat.add_div_right _ hmost]
    congr 1
    omega
  have hm : (n - 1) / most * most = (n - most - 1) / most * most + most := by rw [hd, Nat.succ_mul]
  rw [portions, portions, hm, hd, List.replicate_succ, List.cons_append]
  congr 3
  omega

theorem isEmpty_portions_append (most n : Nat) (rest : List Nat) : (portions most n ++ rest).isEmpty = false := by
  simp [portions]

theorem sum_portions (most n : Nat) : (portions most n).sum = n := by
  have h := Nat.div_mul_le_self (n - 1) most
  rw [portions, List.sum_append, List.sum_replicate_nat, List.sum_singleton]
  omega

theorem le_of_mem_portions (hmost : 0 < most) {k : Nat} (h : k ∈ portions most n) : k ≤ most := by
  rw [portions, List.mem_append, List.mem_singleton] at h
  rcases h with h | rfl
  · exact (List.eq_of_mem_replicate h).le
  · have hlt := Nat.lt_div_mul_add (a := n - 1) hmost
    omega

theorem le_count_of_mem_portions {k : Nat} (h : k ∈ portions most n) : k ≤ n := by
  obtain ⟨front, back, he⟩ := List.append_of_mem h
  have hsum := sum_portions most n
  rw [he, List.sum_append, List.sum_cons] at hsum
  omega

theorem pos_of_mem_portions (hmost : 0 < most) (hn : 0 < n) {k : Nat} (h : k ∈ portions most n) : 0 < k := by
  rw [portions, List.mem_append, List.mem_singleton] at h
  rcases h with h | rfl
  · rw [List.eq_of_mem_replicate h]
    exact hmost
  · have hle := Nat.div_mul_le_self (n - 1) most
    omega

theorem sizes_cons (most n : Nat) (counts : List Nat) :
    sizes most (n :: counts) = portions most n ++ sizes most counts :=
  List.flatMap_cons

theorem isEmpty_sizes (most : Nat) (counts : List Nat) : (sizes most counts).isEmpty = counts.isEmpty := by
  cases counts with
  | nil => rfl
  | cons n counts =>
    rw [sizes_cons, isEmpty_portions_append]
    rfl

theorem sum_sizes (most : Nat) (counts : List Nat) : (sizes most counts).sum = counts.sum := by
  induction counts with
  | nil => rfl
  | cons n counts ih => rw [sizes_cons, List.sum_append, sum_portions, ih, List.sum_cons]

end Sizes

/-! ## Packets -/

/-- Packets of the given sizes from a tick on, of which the last ends the burst. -/
def burstPackets : Nat → Bool → UInt16 → List Nat → List DataPacket
  | _, _, _, [] => []
  | tick, starts, sequence, n :: ns =>
    { header := Header.stamped { startOfBurst := starts, endOfBurst := ns.isEmpty, sequence } (some (UInt64.ofNat tick))
      samples := (List.range' tick n).map ramp } :: burstPackets (tick + n) false (sequence + 1) ns

/-- Packets that carry some counts of samples from a tick on. -/
structure Delivered (most tick : Nat) (counts : List Nat) (ps : List DataPacket) : Prop where
  gapless : Gapless tick ps
  samples : samplesOf ps = (List.range' tick counts.sum).map ramp
  short : ∀ p ∈ ps, p.samples.length ≤ most
  /-- Each count has packets of its own. -/
  own : ∃ groups : List (List DataPacket), ps = groups.flatten ∧ groups.map (fun g => (samplesOf g).length) = counts
  starts : ∀ i p, ps[i]? = some p → (p.header.startOfBurst = true ↔ i = 0)
  ends : ∀ i p, ps[i]? = some p → (p.header.endOfBurst = true ↔ i + 1 = ps.length)

section Packets

variable {tick : Nat} {starts : Bool} {sequence : UInt16} {ns : List Nat}

theorem lengths_burstPackets : (burstPackets tick starts sequence ns).map (·.samples.length) = ns := by
  induction ns generalizing tick starts sequence with
  | nil => rfl
  | cons n ns ih => rw [burstPackets, List.map_cons, ih, List.length_map, List.length_range']

theorem length_burstPackets : (burstPackets tick starts sequence ns).length = ns.length := by
  rw [← List.length_map, lengths_burstPackets]

theorem length_of_mem_burstPackets {p : DataPacket} (h : p ∈ burstPackets tick starts sequence ns) :
    p.samples.length ∈ ns := by
  have hm := List.mem_map_of_mem (f := fun p : DataPacket => p.samples.length) h
  rwa [lengths_burstPackets] at hm

theorem kind_of_mem_burstPackets {p : DataPacket} (h : p ∈ burstPackets tick starts sequence ns) :
    p.header.kind = .data := by
  induction ns generalizing tick starts sequence with
  | nil => cases h
  | cons n ns ih =>
    rcases List.mem_cons.1 h with rfl | h
    · rfl
    · exact ih h

theorem samplesOf_burstPackets :
    samplesOf (burstPackets tick starts sequence ns) = (List.range' tick ns.sum).map ramp := by
  induction ns generalizing tick starts sequence with
  | nil => rfl
  | cons n ns ih => rw [burstPackets, samplesOf_cons, ih, ← List.map_append, List.range'_append_1, List.sum_cons]

theorem gapless_burstPackets (h : tick + ns.sum < 2 ^ 64) : Gapless tick (burstPackets tick starts sequence ns) := by
  induction ns generalizing tick starts sequence with
  | nil => trivial
  | cons n ns ih =>
    rw [List.sum_cons] at h
    have hstart : (UInt64.ofNat tick).toNat = tick := UInt64.toNat_ofNat_of_lt' (show tick < 2 ^ 64 by omega)
    have hrest : ∀ p : DataPacket, p.start = tick → p.samples.length = n →
        Gapless p.stop (burstPackets (tick + n) false (sequence + 1) ns) := by
      intro p hp hn
      rw [DataPacket.stop, hp, hn]
      exact ih (by omega)
    exact ⟨rfl, hstart, hrest _ hstart (by rw [List.length_map, List.length_range'])⟩

/-- Only the first packet may start the burst, and only the last one ends it. -/
theorem flags_burstPackets {i : Nat} {p : DataPacket} (h : (burstPackets tick starts sequence ns)[i]? = some p) :
    p.header.startOfBurst = (starts && i == 0) ∧ p.header.endOfBurst = (i + 1 == ns.length) := by
  induction ns generalizing tick starts sequence i with
  | nil => cases h
  | cons n ns ih =>
    rw [burstPackets] at h
    cases i with
    | zero =>
      cases h
      cases ns <;> simp [Header.stamped]
    | succ i =>
      rw [List.getElem?_cons_succ] at h
      obtain ⟨hs, he⟩ := ih h
      rw [hs, he, List.length_cons]
      simp

theorem length_samplesOf (ps : List DataPacket) : (samplesOf ps).length = (ps.map (·.samples.length)).sum :=
  List.length_flatMap

/-- The packets for some counts carry these counts. -/
theorem delivered_burstPackets {most : Nat} (hmost : 0 < most) {counts : List Nat}
    (h : tick + counts.sum < 2 ^ 64) (sequence : UInt16) :
    Delivered most tick counts (burstPackets tick true sequence (sizes most counts)) where
  gapless := gapless_burstPackets (by rw [sum_sizes]; exact h)
  samples := by rw [samplesOf_burstPackets, sum_sizes]
  short p hp := by
    have hm := length_of_mem_burstPackets hp
    rw [sizes, List.mem_flatMap] at hm
    obtain ⟨n, -, hm⟩ := hm
    exact le_of_mem_portions hmost hm
  own := by
    have hl : (burstPackets tick true sequence (sizes most counts)).map (·.samples.length) =
        (counts.map (portions most)).flatten := lengths_burstPackets
    obtain ⟨groups, hg, hc⟩ := exists_groups hl
    refine ⟨groups, hg, ?_⟩
    have hsum := congrArg (List.map List.sum) hc
    rw [List.map_map, List.map_map] at hsum
    have hid : List.sum ∘ portions most = id := funext (sum_portions most)
    rw [hid, List.map_id] at hsum
    rw [← hsum]
    exact List.map_congr_left fun g _ => length_samplesOf g
  starts i p hp := by
    rw [(flags_burstPackets hp).1]
    simp
  ends i p hp := by
    rw [(flags_burstPackets hp).2, length_burstPackets]
    simp

end Packets

end RadioStream.Sim
