import Mathlib.Data.List.Induction
import RadioStream.Proofs.Sim.Run
import RadioStream.Proofs.Stream
/-!
# The device sample stream

Whatever commands a receive chain gets, however the host interleaves with it and
whenever it finds no frame, the packets that it sends make up one stream: `Integral`.
The ticks of a burst are those that follow the last sample sent, or the burst starts
anew (`Burst.Follows`), and no tick is sent before the clock has passed it, so that a
later start cannot go back behind an earlier one (`Streaming.move`).

Ticks are counted without end here, those of a device in sixty-four bits. `ticks_fit` says
when these hold every tick that the chain has to do with, the ticks it has not sent yet
included.
-/

namespace RadioStream.Sim

open ReceiveChain

/-- The data packets among some emissions, with the ticks at which they were sent. -/
def packetsSent (es : List (Nat × Emission)) : List (Nat × DataPacket) :=
  es.filterMap fun e => e.2.packet?.map (e.1, ·)

/-- The packets that carry samples. -/
def carriers (ds : List (Nat × DataPacket)) : List (Nat × DataPacket) := ds.filter (!·.2.samples.isEmpty)

/-- The tick after the last sample. -/
def lastStop (ds : List (Nat × DataPacket)) : Option Nat := (carriers ds).getLast?.map (·.2.stop)

/-- Packets of at most `most` samples with the ticks at which they were sent: numbered
one after the other, each with the ramp of its ticks and not sent before the last of
them, in the order of their ticks and without overlap. A packet that starts no burst
starts where the one before it stops. -/
structure Integral (most : Nat) (ds : List (Nat × DataPacket)) : Prop where
  sequence : ∀ j d, ds[j]? = some d → d.2.header.sequence = UInt16.ofNat j
  stamped : ∀ d ∈ ds, d.2.header.kind = .data ∧ d.2.header.hasTime = true
  samples : ∀ d ∈ carriers ds, d.2.samples = (List.range' d.2.start d.2.samples.length).map ramp
  short : ∀ d ∈ carriers ds, d.2.samples.length ≤ most
  due : ∀ d ∈ carriers ds, d.2.stop ≤ d.1
  ordered : (carriers ds).Pairwise fun d e => d.2.start < e.2.start ∧ d.2.stop ≤ e.2.start
  joined : ∀ j e, (carriers ds)[j]? = some e → e.2.header.startOfBurst = false →
    ∃ i d, j = i + 1 ∧ (carriers ds)[i]? = some d ∧ e.2.start = d.2.stop

section Lists

variable {most : Nat} {ds : List (Nat × DataPacket)} {d : Nat × DataPacket}

theorem packetsSent_append (es fs : List (Nat × Emission)) :
    packetsSent (es ++ fs) = packetsSent es ++ packetsSent fs := List.filterMap_append

theorem carriers_concat_empty (h : d.2.samples = []) : carriers (ds ++ [d]) = carriers ds := by
  simp [carriers, h]

theorem carriers_concat (h : d.2.samples ≠ []) : carriers (ds ++ [d]) = carriers ds ++ [d] := by
  simp [carriers, h]

theorem lastStop_concat_empty (h : d.2.samples = []) : lastStop (ds ++ [d]) = lastStop ds := by
  rw [lastStop, carriers_concat_empty h, lastStop]

theorem lastStop_concat (h : d.2.samples ≠ []) : lastStop (ds ++ [d]) = some d.2.stop := by
  rw [lastStop, carriers_concat h, List.getLast?_concat, Option.map_some]

theorem Integral.nil (most : Nat) : Integral most [] :=
  ⟨by simp, by simp, by simp [carriers], by simp [carriers], by simp [carriers], .nil, by simp [carriers]⟩

/-- No packet goes past the last sample. -/
theorem Integral.stop_le (h : Integral most ds) : ∀ e ∈ carriers ds, ∃ t ∈ lastStop ds, e.2.stop ≤ t := by
  intro e he
  have ho := h.ordered
  rcases List.eq_nil_or_concat (carriers ds) with hn | ⟨front, last, hl⟩
  · rw [hn] at he
    cases he
  · rw [List.concat_eq_append] at hl
    rw [hl] at he ho
    refine ⟨last.2.stop, by simp [lastStop, hl], ?_⟩
    rcases List.mem_append.1 he with he | he
    · have hb := ((List.pairwise_append.1 ho).2.2 e he last (by simp)).2
      exact hb.trans last.2.start_le_stop
    · rw [List.mem_singleton.1 he]

theorem sequence_concat (h : ∀ j e, ds[j]? = some e → e.2.header.sequence = UInt16.ofNat j)
    (hd : d.2.header.sequence = UInt16.ofNat ds.length) :
    ∀ j e, (ds ++ [d])[j]? = some e → e.2.header.sequence = UInt16.ofNat j := by
  intro j e he
  rcases Nat.lt_trichotomy j ds.length with hj | rfl | hj
  · rw [List.getElem?_append_left hj] at he
    exact h j e he
  · rw [List.getElem?_concat_length] at he
    cases he
    exact hd
  · rw [List.getElem?_eq_none (by rw [List.length_append, List.length_singleton]; omega)] at he
    cases he

/-- A packet without samples needs a number only. -/
theorem Integral.concat_empty (h : Integral most ds) (hd : d.2.header.sequence = UInt16.ofNat ds.length)
    (hs : d.2.header.kind = .data ∧ d.2.header.hasTime = true) (he : d.2.samples = []) : Integral most (ds ++ [d]) where
  sequence := sequence_concat h.sequence hd
  stamped e hm := by
    rcases List.mem_append.1 hm with hm | hm
    · exact h.stamped e hm
    · rw [List.mem_singleton.1 hm]
      exact hs
  samples := by rw [carriers_concat_empty he]; exact h.samples
  short := by rw [carriers_concat_empty he]; exact h.short
  due := by rw [carriers_concat_empty he]; exact h.due
  ordered := by rw [carriers_concat_empty he]; exact h.ordered
  joined := by rw [carriers_concat_empty he]; exact h.joined

/-- A packet with samples comes after the last sample. -/
theorem Integral.concat (h : Integral most ds) (hd : d.2.header.sequence = UInt16.ofNat ds.length)
    (hs : d.2.header.kind = .data ∧ d.2.header.hasTime = true) (hne : d.2.samples ≠ [])
    (hr : d.2.samples = (List.range' d.2.start d.2.samples.length).map ramp) (hshort : d.2.samples.length ≤ most)
    (hdue : d.2.stop ≤ d.1) (hafter : ∀ t ∈ lastStop ds, t ≤ d.2.start)
    (hjoin : d.2.header.startOfBurst = false → lastStop ds = some d.2.start) : Integral most (ds ++ [d]) where
  sequence := sequence_concat h.sequence hd
  stamped e hm := by
    rcases List.mem_append.1 hm with hm | hm
    · exact h.stamped e hm
    · rw [List.mem_singleton.1 hm]
      exact hs
  samples := by
    rw [carriers_concat hne, List.forall_mem_append, List.forall_mem_singleton]
    exact ⟨h.samples, hr⟩
  short := by
    rw [carriers_concat hne, List.forall_mem_append, List.forall_mem_singleton]
    exact ⟨h.short, hshort⟩
  due := by
    rw [carriers_concat hne, List.forall_mem_append, List.forall_mem_singleton]
    exact ⟨h.due, hdue⟩
  ordered := by
    rw [carriers_concat hne, List.pairwise_append]
    refine ⟨h.ordered, List.pairwise_singleton _ _, fun e he f hf => ?_⟩
    rw [List.mem_singleton.1 hf]
    obtain ⟨t, ht, hle⟩ := h.stop_le e he
    have hle' := hafter t ht
    -- the packet has samples, so it stops after its start
    have hpos : 0 < e.2.samples.length := by
      have := (List.mem_filter.1 he).2
      exact List.length_pos_iff.2 (by simpa using this)
    rw [DataPacket.stop] at hle ⊢
    omega
  joined := by
    intro j e he hsob
    rw [carriers_concat hne] at he ⊢
    rcases Nat.lt_trichotomy j (carriers ds).length with hj | rfl | hj
    · rw [List.getElem?_append_left hj] at he
      obtain ⟨i, p, rfl, hp, hstart⟩ := h.joined j e he hsob
      exact ⟨i, p, rfl, by rwa [List.getElem?_append_left (by omega)], hstart⟩
    · rw [List.getElem?_concat_length] at he
      cases he
      have hlast := hjoin hsob
      rw [lastStop, Option.map_eq_some_iff] at hlast
      obtain ⟨p, hp, hstop⟩ := hlast
      rw [List.getLast?_eq_getElem?] at hp
      have hlt := (List.getElem?_eq_some_iff.1 hp).1
      exact ⟨(carriers ds).length - 1, p, by omega, by rwa [List.getElem?_append_left hlt], hstop.symm⟩
    · rw [List.getElem?_eq_none (by rw [List.length_append, List.length_singleton]; omega)] at he
      cases he

end Lists

/-! ## The invariant -/

/-- A burst of packets of at most `most` samples goes on after the last sample sent, or
starts anew behind it. -/
structure Burst.Follows (most : Nat) (last : Option Nat) (b : Burst) : Prop where
  behind : ∀ t ∈ last, t ≤ b.nextTick
  joined : b.starts = false → 0 < most → last = some b.nextTick
  counted : b.starts = true → b.mode.isFixedCount = true → 0 < b.remaining

/-- What a chain has sent makes up one stream, of ticks that the clock has reached, and
its burst follows. -/
structure Streaming (past : Nat) (c : ReceiveChain) (es : List (Nat × Emission)) : Prop where
  integral : Integral c.packetSamples (packetsSent es)
  sequence : c.sequence = UInt16.ofNat (packetsSent es).length
  reached : ∀ t ∈ lastStop (packetsSent es), t ≤ past
  burst : ∀ b ∈ c.burst, b.Follows c.packetSamples (lastStop (packetsSent es))

/-- A command starts no earlier than now. -/
theorem ReceiveChain.le_startTick {c : ReceiveChain} {now tick : Nat} {command : StreamCommand}
    (h : c.startTick? now command = some tick) (hpos : command.immediate = true → 0 < c.packetSamples) :
    now ≤ tick := by
  unfold startTick? at h
  by_cases hi : command.immediate = true
  · rw [if_pos hi, Option.some.injEq] at h
    have hp := hpos hi
    have hm := Nat.mod_lt (now + c.packetSamples - 1) hp
    have hd := Nat.div_add_mod (now + c.packetSamples - 1) c.packetSamples
    rw [Nat.mul_comm] at hd
    omega
  · rw [if_neg hi] at h
    dsimp only at h
    split at h
    · cases h
    · next hle =>
      cases h
      omega

/-- A burst that goes on after a packet goes on at its end. -/
theorem ReceiveChain.burst_advanced {c : ReceiveChain} {b b' : Burst} {n : Nat} (h : (c.advanced b n).burst = some b') :
    b'.nextTick = b.nextTick + n ∧ b'.starts = false := by
  unfold advanced at h
  dsimp only at h
  split at h
  · cases h
    exact ⟨rfl, rfl⟩
  · split at h
    · split at h
      · cases h
        exact ⟨rfl, rfl⟩
      · cases h
    · cases h

/-- Only continuous streaming goes on after samples were lost. -/
theorem ReceiveChain.burst_overflowed {c : ReceiveChain} {b b' : Burst} {n : Nat}
    (h : (c.overflowed b n).burst = some b') : b' = b.skipped n ∧ b.mode.isFixedCount = false := by
  unfold overflowed at h
  dsimp only at h
  split at h
  · cases h
  · next hf =>
    cases h
    exact ⟨rfl, by simpa [Burst.skipped] using hf⟩

theorem ReceiveChain.burst_handle {c : ReceiveChain} {command : StreamCommand} {b : Burst}
    (h : (c.handle command).burst = some b) : c.burst = some b := by
  unfold handle at h
  split at h
  · dsimp only at h
    split at h
    · cases h
    · exact h
  · split at h <;> exact h

namespace Streaming

variable {past : Nat} {now : Reading} {c c' : ReceiveChain} {es : List (Nat × Emission)}

theorem nil (c : ReceiveChain) (hseq : c.sequence = 0) (hb : c.burst = none) : Streaming 0 c [] where
  integral := .nil _
  sequence := hseq
  reached := by simp [lastStop, packetsSent, carriers]
  burst := by simp [hb]

theorem packetsSent_quiet {said : List Emission} (hsaid : ∀ e ∈ said, e.packet? = none) (tick : Nat) :
    packetsSent (said.map (tick, ·)) = [] := by
  rw [packetsSent, List.filterMap_eq_nil_iff]
  intro e he
  obtain ⟨m, hm, rfl⟩ := List.mem_map.1 he
  rw [hsaid m hm, Option.map_none]

/-- Where no packet is sent, the burst must go on to follow. -/
theorem quiet (h : Streaming past c es) (hpast : past ≤ now.tick) {said : List Emission}
    (hsaid : ∀ e ∈ said, e.packet? = none) (hn : c'.packetSamples = c.packetSamples) (hs : c'.sequence = c.sequence)
    (hb : ∀ b ∈ c'.burst, b.Follows c.packetSamples (lastStop (packetsSent es))) :
    Streaming now.tick c' (es ++ said.map (now.tick, ·)) := by
  have hp : packetsSent (es ++ said.map (now.tick, ·)) = packetsSent es := by
    rw [packetsSent_append, packetsSent_quiet hsaid, List.append_nil]
  constructor
  · rw [hp, hn]
    exact h.integral
  · rw [hp, hs]
    exact h.sequence
  · rw [hp]
    exact fun t ht => (h.reached t ht).trans hpast
  · rw [hp, hn]
    exact hb

/-- A packet that is sent joins the stream. The burst that goes on, if one does, must
follow. -/
theorem send (h : Streaming past c es) {p : DataPacket}
    (hn : c'.packetSamples = c.packetSamples) (hs : c'.sequence = c.sequence + 1)
    (hlast : ∀ t ∈ lastStop (packetsSent es ++ [(now.tick, p)]), t ≤ now.tick)
    (hi : Integral c.packetSamples (packetsSent es ++ [(now.tick, p)]))
    (hb : ∀ b ∈ c'.burst, b.Follows c.packetSamples (lastStop (packetsSent es ++ [(now.tick, p)]))) :
    Streaming now.tick c' (es ++ [.data p].map (now.tick, ·)) := by
  have hp : packetsSent (es ++ [Emission.data p].map (now.tick, ·)) = packetsSent es ++ [(now.tick, p)] :=
    packetsSent_append _ _
  constructor
  · rw [hp, hn]
    exact hi
  · rw [hp, hs, h.sequence, List.length_append, List.length_singleton, UInt16.ofNat_add]
    rfl
  · rw [hp]
    exact hlast
  · rw [hp, hn]
    exact hb

/-- The next packet of a burst, when the clock has reached its end. -/
theorem sent (h : Streaming past c es) (hpast : past ≤ now.tick) (hnow : now.tick < 2 ^ 64) {b : Burst}
    (hb : c.burst = some b) (hdue : b.nextTick + b.count c.packetSamples ≤ now.tick) :
    Streaming now.tick (c.advanced b (b.count c.packetSamples)) (es ++ [.data (c.packet b)].map (now.tick, ·)) := by
  have hf := h.burst b hb
  have hstart : (c.packet b).start = b.nextTick := c.start_packet (by omega)
  have hstop : (c.packet b).stop = b.nextTick + b.count c.packetSamples := c.stop_packet (by omega)
  have hlen := c.length_packet b
  obtain ⟨-, -, hn, -, hseq⟩ := c.advanced_keeps b (b.count c.packetSamples)
  have hstamped : (c.packet b).header.kind = .data ∧ (c.packet b).header.hasTime = true := ⟨rfl, rfl⟩
  by_cases hzero : b.count c.packetSamples = 0
  · -- an empty packet leaves the last sample where it was
    have hnil : (c.packet b).samples = [] := List.length_eq_zero_iff.1 (hlen.trans hzero)
    have hlast : lastStop (packetsSent es ++ [(now.tick, c.packet b)]) = lastStop (packetsSent es) :=
      lastStop_concat_empty hnil
    apply h.send hn hseq
    · rw [hlast]
      exact fun t ht => (h.reached t ht).trans hpast
    · exact h.integral.concat_empty h.sequence hstamped hnil
    · intro b' hb'
      obtain ⟨htick, hstarts⟩ := burst_advanced hb'
      rw [hlast]
      refine ⟨by rw [htick, hzero]; exact hf.behind, fun _ hmost => ?_, fun hs => by rw [hstarts] at hs; cases hs⟩
      rw [htick, hzero]
      apply hf.joined _ hmost
      -- a burst that starts has samples to send
      by_contra hs
      rw [Bool.not_eq_false] at hs
      unfold Burst.count at hzero
      split at hzero
      · next hc =>
        have hleft := hf.counted hs hc
        omega
      · omega
  · have hne : (c.packet b).samples ≠ [] := by
      intro hnil
      rw [hnil] at hlen
      exact hzero hlen.symm
    have hlast : lastStop (packetsSent es ++ [(now.tick, c.packet b)]) = some (c.packet b).stop :=
      lastStop_concat hne
    apply h.send hn hseq
    · rw [hlast]
      intro t ht
      cases ht
      rw [hstop]
      exact hdue
    · refine h.integral.concat h.sequence hstamped hne ?_ ?_ ?_ ?_ ?_
      · rw [hstart, hlen]
        rfl
      · rw [hlen]
        exact b.count_le _
      · rw [hstop]
        exact hdue
      · rw [hstart]
        exact hf.behind
      · rw [hstart]
        intro hs
        have hle := b.count_le c.packetSamples
        exact hf.joined hs (by omega)
    · intro b' hb'
      obtain ⟨htick, hstarts⟩ := burst_advanced hb'
      rw [hlast, hstop, ← htick]
      exact ⟨fun t ht => by cases ht; exact le_rfl, fun _ _ => rfl, fun hs => by rw [hstarts] at hs; cases hs⟩

/-- The empty packet that ends a burst. -/
theorem finished (h : Streaming past c es) (hpast : past ≤ now.tick) (tick : Nat) :
    Streaming now.tick { c with sequence := c.sequence + 1, phase := .listen }
      (es ++ [.data (c.closing tick)].map (now.tick, ·)) := by
  have hlast : lastStop (packetsSent es ++ [(now.tick, c.closing tick)]) = lastStop (packetsSent es) :=
    lastStop_concat_empty rfl
  refine h.send ?_ ?_ ?_ ?_ ?_
  · rfl
  · rfl
  · rw [hlast]
    exact fun t ht => (h.reached t ht).trans hpast
  · exact h.integral.concat_empty h.sequence ⟨rfl, rfl⟩ rfl
  · rw [hlast]
    exact h.burst

/-- A command begins a burst that starts, no earlier than now. -/
theorem began (h : Streaming past c es) (hpast : past ≤ now.tick) (hnone : c.burst = none) {command : StreamCommand}
    {commands : List StreamCommand} {tick : Nat} (hpos : command.immediate = true → 0 < c.packetSamples)
    (ht : c.startTick? now.tick command = some tick) :
    ∀ b ∈ (ReceiveChain.start { c with commands } command tick).burst,
      b.Follows c.packetSamples (lastStop (packetsSent es)) := by
  intro b hb
  unfold ReceiveChain.start at hb
  split at hb
  · rw [goTo, hnone] at hb
    cases hb
  · next hz =>
    cases hb
    refine ⟨fun t hl => ?_, fun hs => (by cases hs), fun _ hf => ?_⟩
    · exact ((h.reached t hl).trans hpast).trans (le_startTick ht hpos)
    · -- a fixed count is not zero here
      rw [Bool.and_eq_true, not_and, beq_iff_eq] at hz
      exact Nat.pos_of_ne_zero fun h0 => hz hf (UInt64.toNat_inj.1 h0)

/-- Samples that found no frame are left out of the stream, and the burst starts anew. -/
theorem missed (h : Streaming past c es) {b : Burst} (hb : c.burst = some b) (n : Nat) :
    ∀ b' ∈ (c.overflowed b n).burst, b'.Follows c.packetSamples (lastStop (packetsSent es)) := by
  intro b' hb'
  obtain ⟨rfl, hf⟩ := burst_overflowed hb'
  refine ⟨fun t ht => ?_, fun hs => (by cases hs), fun _ hc => ?_⟩
  · exact ((h.burst b hb).behind t ht).trans (Nat.le_add_right _ _)
  · rw [Burst.skipped, hf] at hc
    cases hc

/-- Every move of a chain keeps its stream in order. -/
theorem move (h : Streaming past c es) (hexact : now.Exact) (hpast : past ≤ now.tick) {l : Link} {heard : List Bytes}
    {said : List Emission} (hm : Move now c l heard said c') :
    Streaming now.tick c' (es ++ said.map (now.tick, ·)) := by
  have hn := hm.fixed.2.2
  cases hm with
  | heard =>
    exact h.quiet hpast (by simp) hn (c.handle_keeps _).2.2.2.1 fun b hb => h.burst b (burst_handle hb)
  | begin _ hnone _ hpos ht =>
    exact h.quiet hpast (by simp) hn (start_keeps _ _ _).2.2.2.1 (h.began hpast hnone hpos ht)
  | sent _ hb hdue =>
    obtain ⟨time, hleft, hzero⟩ := hexact.left (_ : Nat)
    rw [hleft, Option.some.injEq] at hdue
    exact h.sent hpast hexact.bounded hb (hzero.1 hdue)
  | missed _ hb =>
    exact h.quiet hpast (by simp) hn (c.overflowed_keeps _ _).2.2.2 (h.missed hb _)
  | finished => exact h.finished hpast _
  | late _ _ _ _ ht => cases ht <;> exact h.quiet hpast (by simp [Emission.packet?]) hn rfl h.burst
  | brokeOff _ ht => cases ht <;> exact h.quiet hpast (by simp [Emission.packet?]) hn rfl h.burst
  | _ => exact h.quiet hpast (by simp [Emission.packet?]) hn rfl h.burst

end Streaming

/-! ## Sixty-four bits -/

/-- The clock is more than some samples away from the end of its sixty-four bits. -/
def Reading.Clear (most : Nat) (now : Reading) : Prop :=
  ∀ tick < 2 ^ 64, now.left? tick = some 0 → tick + most < 2 ^ 64

theorem Reading.Exact.clear_iff {now : Reading} (h : now.Exact) {most : Nat} :
    now.Clear most ↔ now.tick + most < 2 ^ 64 := by
  constructor
  · intro hc
    obtain ⟨time, hleft, hz⟩ := h.left now.tick
    exact hc _ h.bounded (by rw [hleft, hz.2 le_rfl])
  · intro hlt tick _ ht
    obtain ⟨time, hleft, hz⟩ := h.left tick
    have hle := hz.1 (Option.some.inj (hleft.symm.trans ht))
    omega

/-- An exact clock that has not come near the end. -/
theorem clear_of_ticks {most : Nat} {as : List StationAction} (ticks : List Nat)
    (hr : readings as = ticks.map Reading.at) (h : ∀ t ∈ ticks, t + most < 2 ^ 64) :
    ∀ now ∈ readings as, now.Clear most := by
  intro now hn
  rw [hr] at hn
  obtain ⟨tick, hm, rfl⟩ := List.mem_map.1 hn
  have hlt := h tick hm
  exact (Reading.exact_at (by omega)).clear_iff.2 hlt

namespace ReceiveChain

/-- The ticks that a chain has to do with have sixty-four bits, with those of the next packet
of its burst. -/
structure TicksFit (c : ReceiveChain) : Prop where
  burst : ∀ b ∈ c.burst, b.nextTick + c.packetSamples < 2 ^ 64
  overflow : ∀ tick ∈ c.overflow, tick < 2 ^ 64
  ending : ∀ tick, c.phase = .finish tick ∨ c.phase = .breakOff tick → tick < 2 ^ 64

/-- A command, if it is put off, starts at a tick of sixty-four bits, with those of its first
packet. -/
def StartFits (c : ReceiveChain) (command : StreamCommand) : Prop :=
  command.immediate = false → (command.time.startTick c.rate).toNat + c.packetSamples < 2 ^ 64

theorem startTick?_fits {c : ReceiveChain} {now tick : Nat} {command : StreamCommand}
    (h : c.startTick? now command = some tick) (hclear : now + 2 * c.packetSamples < 2 ^ 64)
    (hput : c.StartFits command) : tick + c.packetSamples < 2 ^ 64 := by
  unfold startTick? at h
  by_cases hi : command.immediate = true
  · rw [if_pos hi, Option.some.injEq] at h
    have hle := Nat.div_mul_le_self (now + c.packetSamples - 1) c.packetSamples
    omega
  · rw [if_neg hi] at h
    dsimp only at h
    split at h
    · cases h
    · cases h
      exact hput (Bool.not_eq_true _ ▸ hi)

/-- A chain that breaks off does so where its packet ends. -/
theorem breakOff_advanced {c : ReceiveChain} {b : Burst} {n tick : Nat} (h : (c.advanced b n).phase = .breakOff tick) :
    tick = b.nextTick + n := by
  unfold advanced at h
  dsimp only at h
  split at h
  · cases h
  · split at h
    · split at h
      · cases h
      · cases h
        rfl
    · cases h

theorem overflow_overflowed (c : ReceiveChain) (b : Burst) (n : Nat) :
    (c.overflowed b n).overflow = some (b.nextTick + n) ∧ (c.overflowed b n).phase = .listen := by
  unfold overflowed
  dsimp only
  split <;> exact ⟨rfl, rfl⟩

namespace TicksFit

variable {now : Reading} {c c' : ReceiveChain}

/-- What keeps the burst and owes no more than before. -/
theorem quiet (h : c.TicksFit) (hn : c'.packetSamples = c.packetSamples) (hb : ∀ b ∈ c'.burst, b ∈ c.burst)
    (ho : ∀ tick ∈ c'.overflow, tick ∈ c.overflow)
    (hp : ∀ tick, c'.phase ≠ .finish tick ∧ c'.phase ≠ .breakOff tick) : c'.TicksFit where
  burst b hb' := by
    rw [hn]
    exact h.burst b (hb b hb')
  overflow tick ht := h.overflow tick (ho tick ht)
  ending tick ht := (ht.elim (hp tick).1 (hp tick).2).elim

/-- The chain turns to something that is not the end of a burst. -/
theorem goTo (h : c.TicksFit) {phase : ReceivePhase} (hp : ∀ tick, phase ≠ .finish tick ∧ phase ≠ .breakOff tick) :
    (c.goTo phase).TicksFit :=
  h.quiet rfl (fun _ hb => hb) (fun _ ht => ht) hp

theorem handle (h : c.TicksFit) (command : StreamCommand) : (c.handle command).TicksFit := by
  obtain ⟨-, -, hn, -, ho⟩ := c.handle_keeps command
  rcases c.phase_handle command with hp | ⟨-, b, hb, hp⟩
  · refine h.quiet hn (fun b hb => burst_handle hb) (fun tick ht => ho ▸ ht) fun tick => ?_
    rw [hp]
    exact ⟨nofun, nofun⟩
  · refine ⟨fun b hb => ?_, fun tick ht => h.overflow tick (ho ▸ ht), fun tick ht => ?_⟩
    · rw [hn]
      exact h.burst b (burst_handle hb)
    · rw [hp] at ht
      rcases ht with ht | ht
      · cases ht
        have hlt := h.burst b hb
        omega
      · cases ht

/-- A command begins. -/
theorem start (h : c.TicksFit) (command : StreamCommand) {tick : Nat} (ht : tick + c.packetSamples < 2 ^ 64) :
    (c.start command tick).TicksFit := by
  unfold ReceiveChain.start
  split
  · refine ⟨h.burst, h.overflow, fun t hp => ?_⟩
    have he : t = tick := by
      by_cases hd : command.mode = .samplesAndDone <;> simp [ReceiveChain.goTo, hd] at hp
      exact hp.symm
    omega
  · refine ⟨fun b hb => ?_, h.overflow, fun t hp => ?_⟩
    · cases hb
      exact ht
    · rcases hp with hp | hp <;> cases hp

/-- Every move keeps the ticks in sixty-four bits, where neither the clock nor a command that
is put off comes near their end. -/
theorem move (h : c.TicksFit) (hexact : now.Exact) (hclear : now.tick + 2 * c.packetSamples < 2 ^ 64)
    (hput : ∀ command ∈ c.commands, c.StartFits command) {l : Link} {heard : List Bytes} {said : List Emission}
    (hm : Move now c l heard said c') : c'.TicksFit := by
  -- a packet that is due leaves the burst where the clock has been
  have hdue : ∀ {tick : Nat}, now.left? tick = some 0 → tick ≤ now.tick := by
    intro tick ht
    obtain ⟨time, hleft, hz⟩ := hexact.left tick
    exact hz.1 (Option.some.inj (hleft.symm.trans ht))
  cases hm with
  | heard => exact h.handle _
  | reported => exact h.quiet rfl (fun _ hb => hb) nofun fun _ => ⟨nofun, nofun⟩
  | unreported =>
    refine h.goTo fun _ => ?_
    split <;> exact ⟨nofun, nofun⟩
  | @begin command commands tick _ _ hc _ ht =>
    have hstart := startTick?_fits ht hclear (hput command (by rw [hc]; exact List.mem_cons_self))
    have hrest : TicksFit { c with commands } := ⟨h.burst, h.overflow, h.ending⟩
    exact hrest.start command hstart
  | @sent b _ hb ht =>
    have hle := hdue ht
    obtain ⟨-, -, hn, ho, -⟩ := c.advanced_keeps b (b.count c.packetSamples)
    refine ⟨fun b' hb' => ?_, fun tick ht => h.overflow tick (ho ▸ ht), fun tick hp => ?_⟩
    · obtain ⟨htick, -⟩ := burst_advanced hb'
      rw [hn]
      omega
    · rcases hp with hp | hp
      · rcases c.phase_advanced b (b.count c.packetSamples) with he | ⟨_, he⟩ <;> cases he.symm.trans hp
      · have he := breakOff_advanced hp
        omega
  | @missed b _ hb ht =>
    have hle := hdue ht
    obtain ⟨-, -, hn, -⟩ := c.overflowed_keeps b (b.count c.packetSamples)
    obtain ⟨ho, hp⟩ := c.overflow_overflowed b (b.count c.packetSamples)
    refine ⟨fun b' hb' => ?_, fun tick ht => ?_, fun tick hp' => ?_⟩
    · obtain ⟨rfl, -⟩ := burst_overflowed hb'
      rw [hn, Burst.skipped]
      dsimp only
      omega
    · rw [ho] at ht
      cases ht
      omega
    · rw [hp] at hp'
      rcases hp' with hp' | hp' <;> cases hp'
  | stalled => exact h
  | stopped => exact h
  | _ => exact h.quiet rfl (fun _ hb => hb) (fun _ ht => ht) fun _ => ⟨nofun, nofun⟩

end TicksFit

end ReceiveChain

/-- Where the clock stays more than two packets away from the end of its sixty-four bits, and
the commands that are put off more than one, no tick that the chain has to do with is past
it. -/
theorem ticks_fit {g : Geometry} {l : Link} (hl : Link.new g = .ok l) (format : WireFormat) (rate : Float) {most : Nat}
    (hroom : Header.size + most * format.sampleBytes ≤ g.recvFrameSize) {as : List StationAction}
    (hclock : Ticking as) (hclear : ∀ now ∈ readings as, now.Clear (2 * most)) :
    let x := Station.fresh format rate most l
    (∀ y ∈ x.moments as, ∀ command ∈ y.1.chain.commands, y.1.chain.StartFits command) → (x.run as).chain.TicksFit := by
  intro x hput
  obtain ⟨hlogged, -⟩ := Station.Logged.of_new hl format rate hroom
  have hfresh : x.chain.packetSamples = most ∧ x.chain.TicksFit := ⟨rfl, nofun, nofun, nofun⟩
  obtain ⟨-, -, -, -, hfit⟩ := Station.run_keeps (I := fun _ c _ => c.packetSamples = most ∧ c.TicksFit)
    (fun {past y now heard said c' es} hy hexact _ hm hi => by
      have hnow : now ∈ readings as := by
        rw [← x.map_moments as]
        exact List.mem_map_of_mem hy
      have hlt := hexact.clear_iff.1 (hclear now hnow)
      rw [← hi.1] at hlt
      exact ⟨hm.fixed.2.2.trans hi.1, hi.2.move hexact hlt (hput _ hy) hm⟩)
    hlogged hfresh hclock fun _ _ => Nat.zero_le _
  exact hfit

/-- Whatever the host sends to a chain and whenever it takes frames and lets them go:
what the chain puts on the link are status packets and the packets of one stream. No tick
in them is past the clock, which has sixty-four bits; those that the chain counts ahead of
it have no more where `ticks_fit` applies. -/
theorem device_stream_integrity {g : Geometry} {l : Link} (hl : Link.new g = .ok l) (format : WireFormat) (rate : Float)
    {most : Nat} (hroom : Header.size + most * format.sampleBytes ≤ g.recvFrameSize) {as : List StationAction}
    (hclock : Ticking as) :
    let x := Station.fresh format rate most l
    ∃ es, (x.run as).log = es.map (fun e => (e.1, e.2.bytes format)) ∧ Integral most (packetsSent es) := by
  intro x
  obtain ⟨hlogged, -⟩ := Station.Logged.of_new hl format rate hroom
  obtain ⟨past, es, hx, hs⟩ := Station.run_keeps (fun _ hexact hpast hm hs => hs.move hexact hpast hm) hlogged
    (Streaming.nil x.chain rfl rfl) hclock fun _ _ => Nat.zero_le _
  obtain ⟨-, hformat, -, hsamples⟩ := hlogged.run as
  refine ⟨es, ?_, ?_⟩
  · rw [hx.log, hformat]
    rfl
  · have hi := hs.integral
    rw [hsamples] at hi
    exact hi

/-- Two frames, of which the host takes none at first: the third packet is lost and
reported, and streaming goes on until it is stopped. -/
theorem device_stream_integrity_overflow :
    let post (mode : StreamMode) : StationAction :=
      .post ((StreamCommand.now mode 0 : StreamCommand).encode 1 (List.replicate 28 0)).frame
    let steps (n tick : Nat) : List StationAction := List.replicate n (.chain (.at tick))
    let as := post .startContinuous :: steps 4 1 ++ steps 1 4 ++ steps 4 6 ++ steps 4 8 ++ [.take, .release 0] ++
      steps 2 9 ++ [.take, .release 0] ++ steps 2 10 ++ [.take, .release 0, post .stopContinuous] ++ steps 2 11
    let g : Geometry := { recvFrameSize := 24, sendFrameSize := 28, recvFrames := 2, sendFrames := 1 }
    let data (first last : Bool) (sequence : UInt16) (tick : UInt64) (xs : List (Iq Int16)) : Emission := .data
      ⟨{ startOfBurst := first, endOfBurst := last, hasTime := true, sequence, timestamp := tick }, xs⟩
    ∃ l, Link.new g = .ok l ∧ Header.size + 2 * WireFormat.sampleBytes .sc16 ≤ g.recvFrameSize ∧ Ticking as ∧
      let x := Station.fresh .sc16 1 2 l
      (x.run as).log = [(4, data true false 0 2 [ramp 2, ramp 3]), (6, data false false 1 4 [ramp 4, ramp 5]),
        (9, .status .overflow 8), (10, data true false 2 8 [ramp 8, ramp 9]), (11, data false true 3 10 [])].map
          (fun e => (e.1, e.2.bytes .sc16)) ∧
      ∃ es, (x.run as).log = es.map (fun e => (e.1, e.2.bytes .sc16)) ∧ Integral 2 (packetsSent es) := by
  intro post steps as g data
  have hroom : Header.size + 2 * WireFormat.sampleBytes .sc16 ≤ g.recvFrameSize := by decide
  have hclock : Ticking as :=
    .of_ticks [1, 1, 1, 1, 4, 6, 6, 6, 6, 8, 8, 8, 8, 9, 9, 10, 10, 11, 11] rfl (by decide) (by decide)
  have hl : ∃ l, Link.new g = .ok l := ⟨_, rfl⟩
  obtain ⟨l, hl⟩ := hl
  refine ⟨l, hl, hroom, hclock, ?_, device_stream_integrity hl .sc16 1 hroom hclock⟩
  cases hl
  decide +kernel

end RadioStream.Sim
