import Mathlib.Data.List.DropRight
import RadioStream.Proofs.Sim.Integrity
import RadioStream.Proofs.Sim.Story
/-!
# How bursts are framed

A burst begins with a command, or anew after packets were skipped. The rule is that its
first packet carries the start of the burst and no other does, and that a packet which
ends the burst is its last one (`InOrder`). The chain keeps to it as long as it sends
samples. The empty packet that ends a burst which is stopped, or of a count of zero, never
carries the start: where the burst had not sent anything before, an end comes without a
start (`Unopened`). `bursts_framed` says that there is no other exception.
-/

namespace RadioStream.Sim

open ReceiveChain

/-- What has happened since a burst began last. -/
def sinceBegin (s : List Happening) : List Happening := s.rtakeWhile (!·.begins)

/-- The data packets among some happenings: their headers and how many samples they have. -/
def dataOf (s : List Happening) : List (Header × Nat) := s.filterMap Happening.data?

/-- The rule for a packet after what happened before it: the first packet of a burst
carries the start and no other does, an end has a start before it or with it, and nothing
of the burst comes after the end. -/
structure InOrder (before : List Happening) (p : Header × Nat) : Prop where
  starts : p.1.startOfBurst = true ↔ dataOf (sinceBegin before) = []
  started : p.1.endOfBurst = true →
    p.1.startOfBurst = true ∨ ∃ q ∈ dataOf (sinceBegin before), q.1.startOfBurst = true
  going : ∀ q ∈ dataOf (sinceBegin before), q.1.endOfBurst = false

/-- A burst was stopped, or had no samples to begin with, and has not sent anything. -/
def Unopened (before : List Happening) : Prop :=
  (sinceBegin before).any (·.isStop) = true ∧ dataOf (sinceBegin before) = []

instance (before : List Happening) : Decidable (Unopened before) := inferInstanceAs (Decidable (_ ∧ _))

/-- A burst has begun, and the packets sent since open it, if there are any, and do not
end it. -/
structure Opens (s : List Happening) : Prop where
  begun : s.any (·.begins) = true
  started : dataOf (sinceBegin s) ≠ [] → ∃ q ∈ dataOf (sinceBegin s), q.1.startOfBurst = true
  going : ∀ q ∈ dataOf (sinceBegin s), q.1.endOfBurst = false

/-- What holds of a packet after what happened before it. Once the burst was stopped, only
the empty packet comes that ends it. -/
structure Framed (before : List Happening) (p : Header × Nat) : Prop extends Opens before where
  starts : p.1.startOfBurst = true ↔
    dataOf (sinceBegin before) = [] ∧ (sinceBegin before).any (·.isStop) = false
  closing : (sinceBegin before).any (·.isStop) = true → p.1.endOfBurst = true ∧ p.2 = 0

/-- The rule is broken where the burst ends before it was opened, and there only. -/
theorem Framed.inOrder_iff {before : List Happening} {p : Header × Nat} (h : Framed before p) :
    InOrder before p ↔ ¬Unopened before := by
  constructor
  · rintro ⟨hs, -, -⟩ ⟨hstop, hnil⟩
    have := (h.starts.1 (hs.2 hnil)).2
    rw [hstop] at this
    cases this
  · intro hu
    have hstop : dataOf (sinceBegin before) = [] → (sinceBegin before).any (·.isStop) = false :=
      fun hnil => Bool.eq_false_iff.2 fun hs => hu ⟨hs, hnil⟩
    refine ⟨h.starts.trans (and_iff_left_of_imp hstop), fun _ => ?_, h.going⟩
    by_cases hnil : dataOf (sinceBegin before) = []
    · exact .inl (h.starts.2 ⟨hnil, hstop hnil⟩)
    · exact .inr (h.started hnil)

section Stories

variable {s hs : List Happening} {h : Happening}

theorem sinceBegin_concat (s : List Happening) (h : Happening) :
    sinceBegin (s ++ [h]) = if h.begins then [] else sinceBegin s ++ [h] := by
  rw [sinceBegin, List.rtakeWhile_concat]
  cases h.begins <;> rfl

theorem sinceBegin_begins (hb : h.begins = true) : sinceBegin (s ++ [h]) = [] := by
  rw [sinceBegin_concat, if_pos hb]

theorem sinceBegin_append (hq : ∀ k ∈ hs, k.begins = false) : sinceBegin (s ++ hs) = sinceBegin s ++ hs := by
  induction hs using List.reverseRecOn with
  | nil => rw [List.append_nil, List.append_nil]
  | append_singleton hs k ih =>
    rw [List.forall_mem_append, List.forall_mem_singleton] at hq
    rw [← List.append_assoc, sinceBegin_concat, ih hq.1, hq.2]
    simp

theorem dataOf_append (s hs : List Happening) : dataOf (s ++ hs) = dataOf s ++ dataOf hs := List.filterMap_append

theorem dataOf_quiet (hq : ∀ k ∈ hs, k.data? = none) : dataOf hs = [] := List.filterMap_eq_nil_iff.2 hq

end Stories

/-! ## One step -/

namespace ReceiveChain

/-- A burst that goes on after a packet has not ended with it. -/
theorem ends_of_advanced {c : ReceiveChain} {b b' : Burst} {n : Nat} (h : (c.advanced b n).burst = some b') :
    b.ends n = false := by
  by_contra he
  rw [Bool.not_eq_false, Burst.ends, Bool.and_eq_true, beq_iff_eq, beq_iff_eq] at he
  obtain ⟨hm, rfl⟩ := he
  simp [advanced, Burst.sent, hm, StreamMode.isFixedCount] at h

theorem burst_handle_stop {c : ReceiveChain} {command : StreamCommand} (h : command.mode = .stopContinuous) :
    (c.handle command).burst = none := by
  unfold handle
  rw [if_pos h]
  dsimp only
  split
  · rfl
  · assumption

end ReceiveChain

/-- A chain with a burst goes on with the packets of it, and one that is to end a burst
has none. -/
structure Attends (c : ReceiveChain) (s : List Happening) : Prop where
  burst : ∀ b, c.burst = some b → Opens s ∧ (sinceBegin s).any (·.isStop) = false ∧
    (b.starts = true ↔ dataOf (sinceBegin s) = [])
  finish : ∀ tick, c.phase = .finish tick → c.burst = none ∧ Opens s ∧ (sinceBegin s).any (·.isStop) = true

namespace Opens

variable {s hs : List Happening} {h : Happening}

theorem of_begins (hb : h.begins = true) (s : List Happening) : Opens (s ++ [h]) where
  begun := by simp [hb]
  started hn := absurd (by simp [sinceBegin_begins hb, dataOf]) hn
  going := by simp [sinceBegin_begins hb, dataOf]

/-- What is no packet does not matter. -/
theorem append (ho : Opens s) (hb : ∀ k ∈ hs, k.begins = false) (hd : ∀ k ∈ hs, k.data? = none) : Opens (s ++ hs) := by
  have he : dataOf (sinceBegin (s ++ hs)) = dataOf (sinceBegin s) := by
    rw [sinceBegin_append hb, dataOf_append, dataOf_quiet hd, List.append_nil]
  constructor
  · rw [List.any_append, ho.begun, Bool.true_or]
  · rw [he]
    exact ho.started
  · rw [he]
    exact ho.going

/-- A packet that does not end the burst. -/
theorem packet (ho : Opens s) {p : Header × Nat} (hb : h.begins = false) (hp : h.data? = some p)
    (hs : dataOf (sinceBegin s) = [] → p.1.startOfBurst = true) (he : p.1.endOfBurst = false) : Opens (s ++ [h]) := by
  have hd : dataOf (sinceBegin (s ++ [h])) = dataOf (sinceBegin s) ++ [p] := by
    rw [sinceBegin_concat, if_neg (by simp [hb]), dataOf_append]
    simp [dataOf, hp]
  constructor
  · rw [List.any_append, ho.begun, Bool.true_or]
  · rw [hd]
    intro _
    by_cases hn : dataOf (sinceBegin s) = []
    · exact ⟨p, by simp, hs hn⟩
    · obtain ⟨q, hq, hq'⟩ := ho.started hn
      exact ⟨q, List.mem_append_left _ hq, hq'⟩
  · rw [hd, List.forall_mem_append, List.forall_mem_singleton]
    exact ⟨ho.going, he⟩

end Opens

namespace Attends

variable {c c' : ReceiveChain} {s hs : List Happening}

/-- Nothing of a burst happens, and the chain goes on with it or drops it. -/
theorem quiet (h : Attends c s) (hb : ∀ k ∈ hs, k.begins = false) (hd : ∀ k ∈ hs, k.data? = none)
    (hstop : ∀ k ∈ hs, k.isStop = false) (hburst : ∀ b, c'.burst = some b → c.burst = some b)
    (hphase : ∀ tick, c'.phase = .finish tick → c.phase = .finish tick) : Attends c' (s ++ hs) := by
  have he : dataOf (sinceBegin (s ++ hs)) = dataOf (sinceBegin s) := by
    rw [sinceBegin_append hb, dataOf_append, dataOf_quiet hd, List.append_nil]
  have hany : (sinceBegin (s ++ hs)).any (·.isStop) = (sinceBegin s).any (·.isStop) := by
    have hn : hs.any (·.isStop) = false := List.any_eq_false.2 fun k hk => by simp [hstop k hk]
    rw [sinceBegin_append hb, List.any_append, hn, Bool.or_false]
  constructor
  · intro b hb'
    obtain ⟨ho, hs, ht⟩ := h.burst b (hburst b hb')
    rw [hany, he]
    exact ⟨ho.append hb hd, hs, ht⟩
  · intro tick hp
    obtain ⟨hn, ho, hs⟩ := h.finish tick (hphase tick hp)
    rw [hany]
    refine ⟨?_, ho.append hb hd, hs⟩
    by_contra hne
    obtain ⟨b, hb'⟩ := Option.ne_none_iff_exists'.1 hne
    rw [hburst b hb'] at hn
    cases hn

/-- A burst begins. -/
theorem begins {h : Happening} (hh : h.begins = true) (hphase : ∀ tick, c'.phase ≠ .finish tick)
    (hstarts : ∀ b, c'.burst = some b → b.starts = true) (s : List Happening) : Attends c' (s ++ [h]) where
  burst b hb := by
    rw [sinceBegin_begins hh]
    exact ⟨.of_begins hh s, rfl, by simp [hstarts b hb, dataOf]⟩
  finish tick hp := absurd hp (hphase tick)

/-- A burst is to end with an empty packet. -/
theorem stops (ho : Opens s) (hburst : c'.burst = none) : Attends c' (s ++ [.stopped]) where
  burst b hb := by rw [hburst] at hb; cases hb
  finish tick hp := by
    refine ⟨hburst, ho.append (by simp [Happening.begins]) (by simp [Happening.data?]), ?_⟩
    rw [sinceBegin_append (by simp [Happening.begins])]
    simp [Happening.isStop]

/-- A chain without anything to go on with. -/
theorem free (hburst : c'.burst = none) (hphase : ∀ tick, c'.phase ≠ .finish tick) (s : List Happening) :
    Attends c' s where
  burst b hb := by rw [hburst] at hb; cases hb
  finish tick hp := absurd hp (hphase tick)

/-- A command begins its burst. A count of zero ends at once. -/
theorem start (hb : c.burst = none) (command : StreamCommand) (tick : Nat) (s : List Happening) :
    Attends (c.start command tick) (s ++
      if command.mode == .samplesAndDone && command.samples == 0 then [.began, .stopped] else [.began]) := by
  unfold ReceiveChain.start
  by_cases hz : (command.mode.isFixedCount && command.samples == 0) = true
  · rw [if_pos hz]
    by_cases hm : command.mode = .samplesAndDone
    · rw [hm] at hz
      rw [if_pos hm, if_pos (by rw [hm]; simpa [StreamMode.isFixedCount] using hz)]
      rw [show s ++ [.began, .stopped] = s ++ [Happening.began] ++ [.stopped] by simp]
      exact .stops (.of_begins rfl s) hb
    · rw [if_neg hm, if_neg (by simp [hm])]
      refine .free ?_ (by simp [goTo]) _
      exact hb
  · have hz' : ¬(command.mode == .samplesAndDone && command.samples == 0) = true := by
      intro h
      rw [Bool.and_eq_true, beq_iff_eq] at h
      exact hz (by rw [h.1, h.2]; rfl)
    rw [if_neg hz, if_neg hz']
    refine .begins rfl (by simp) ?_ s
    rintro b ⟨⟩
    rfl

/-- Samples were skipped. A burst without an end begins anew, any other is over. -/
theorem overflowed (c : ReceiveChain) (b : Burst) (n : Nat) (s : List Happening) :
    Attends (c.overflowed b n) (s ++ [.skipped !b.mode.isFixedCount]) := by
  unfold ReceiveChain.overflowed
  dsimp only
  cases hm : b.mode.isFixedCount with
  | true =>
    rw [if_pos (by simpa [Burst.skipped] using hm)]
    exact .free rfl (by simp) _
  | false =>
    rw [if_neg (by simp [Burst.skipped, hm])]
    refine .begins rfl (by simp) ?_ s
    rintro b' ⟨⟩
    rfl

/-- The next packet of a burst. A burst that goes on has not ended with it. -/
theorem sent (h : Attends c s) {b : Burst} (hb : c.burst = some b) (format : WireFormat) :
    Attends (c.advanced b (b.count c.packetSamples)) (s ++ readable format [.data (c.packet b)]) ∧
      (Packetwise Framed s → Packetwise Framed (s ++ readable format [.data (c.packet b)])) := by
  obtain ⟨n, hn⟩ := readable_data format (show (c.packet b).header.kind = .data from rfl)
  obtain ⟨ho, hstop, hstarts⟩ := h.burst b hb
  rw [hn]
  have hfinish : ∀ tick, (c.advanced b (b.count c.packetSamples)).phase ≠ .finish tick := by
    intro tick
    rcases c.phase_advanced b (b.count c.packetSamples) with hp | ⟨t, hp⟩ <;> rw [hp] <;> exact nofun
  refine ⟨⟨fun b' hb' => ?_, fun tick hp => absurd hp (hfinish tick)⟩, fun hf => ?_⟩
  · obtain ⟨-, hs'⟩ := burst_advanced hb'
    refine ⟨ho.packet rfl rfl hstarts.2 (ends_of_advanced hb'), ?_, ?_⟩
    · rw [sinceBegin_append (by simp [Happening.begins]), List.any_append, hstop]
      rfl
    · rw [sinceBegin_append (by simp [Happening.begins]), dataOf_append, hs']
      simp [dataOf, Happening.data?]
  · refine packetwise_concat.2 ⟨hf, fun p hp => ?_⟩
    cases hp
    exact ⟨ho, hstarts.trans (and_iff_left hstop).symm, fun hs => by rw [hstop] at hs; cases hs⟩

/-- The empty packet that ends a burst. -/
theorem finished (h : Attends c s) {tick : Nat} (hp : c.phase = .finish tick) (format : WireFormat)
    (hf : Packetwise Framed s) : Packetwise Framed (s ++ readable format [.data (c.closing tick)]) := by
  obtain ⟨-, ho, hstop⟩ := h.finish tick hp
  rw [readable_closing]
  refine packetwise_concat.2 ⟨hf, fun p hp => ?_⟩
  cases hp
  exact ⟨ho, by simp [hstop, closing, Header.stamped], fun _ => ⟨rfl, rfl⟩⟩

section Steps

variable {now : Reading} {l : Link} {heard : List Bytes} {said : List Emission}

/-- Where nothing happens, the chain goes on with its burst or drops it. -/
theorem still (h : Attends c s) (hf : Packetwise Framed s) (format : WireFormat)
    (hh : happenings now c l heard = []) (hburst : ∀ b, c'.burst = some b → c.burst = some b)
    (hphase : ∀ tick, c'.phase = .finish tick → c.phase = .finish tick) :
    Attends c' (s ++ (happenings now c l heard ++ readable format [])) ∧
      Packetwise Framed (s ++ (happenings now c l heard ++ readable format [])) := by
  rw [hh, readable_nil, List.append_nil, List.append_nil]
  have hq : Attends c' (s ++ []) := h.quiet (by simp) (by simp) (by simp) hburst hphase
  rw [List.append_nil] at hq
  exact ⟨hq, hf⟩

/-- A report is no part of a burst. -/
theorem told (h : Attends c s) (hf : Packetwise Framed s) (format : WireFormat) {code : RxCode} {tick : Nat}
    (ht : Told l code tick said) (hh : happenings now c l heard = [])
    (hburst : ∀ b, c'.burst = some b → c.burst = some b)
    (hphase : ∀ tick, c'.phase = .finish tick → c.phase = .finish tick) :
    Attends c' (s ++ (happenings now c l heard ++ readable format said)) ∧
      Packetwise Framed (s ++ (happenings now c l heard ++ readable format said)) := by
  cases ht with
  | lost => exact h.still hf format hh hburst hphase
  | out =>
    rw [hh, readable_status, List.nil_append]
    exact ⟨h.quiet (by simp [Happening.begins]) (by simp [Happening.data?, report]) (by simp [Happening.isStop])
      hburst hphase, (packetwise_append (by simp [Happening.data?, report])).2 hf⟩

end Steps

end Attends

namespace ReceiveChain

variable {now : Reading} {c c' : ReceiveChain} {l : Link} {heard : List Bytes} {said : List Emission}
  {s : List Happening}

/-- Every move keeps the frames of the bursts. -/
theorem Move.frames (hm : Move now c l heard said c') (h : Attends c s) (hf : Packetwise Framed s)
    (format : WireFormat) : Attends c' (s ++ (happenings now c l heard ++ readable format said)) ∧
      Packetwise Framed (s ++ (happenings now c l heard ++ readable format said)) := by
  cases hm with
  | closed hp => exact h.still hf format (happenings_unheard hp (by simp)) (fun _ => id) (by simp [goTo])
  | @heard f command hp hk =>
    by_cases hstop : command.mode = .stopContinuous ∧ c.burst.isSome = true
    · obtain ⟨hm, hb⟩ := hstop
      obtain ⟨b, hb⟩ := Option.isSome_iff_exists.1 hb
      rw [happenings_stop hp hb hk hm, readable_nil, List.append_nil]
      exact ⟨.stops (h.burst b hb).1 (burst_handle_stop hm), (packetwise_append (by simp [Happening.data?])).2 hf⟩
    · refine h.still hf format (happenings_heard hp hk hstop) (fun b hb => burst_handle hb) fun tick ht => ?_
      rcases c.phase_handle command with hl | ⟨hm, b, hb, -⟩
      · rw [hl] at ht
        cases ht
      · exact absurd ⟨hm, by simp [hb]⟩ hstop
  | unheard hp hl hn => exact h.still hf format (happenings_unheard hp hn) (fun _ => id) (by simp [goTo])
  | settled hp => exact h.still hf format (by simp [happenings, hp]) (fun _ => id) (by simp [goTo])
  | reported hp ho ht => exact h.told hf format ht (by simp [happenings, hp]) (fun _ => id) (by simp)
  | unreported hp ho ht =>
    exact h.still hf format (by simp [happenings, hp]) (fun _ => id) (by simp only [goTo]; split <;> simp)
  | goOn hp hb => exact h.still hf format (by simp [happenings, hp, hb]) (fun _ => id) (by simp [goTo])
  | idle hp hb hc => exact h.still hf format (by simp [happenings, hp, hb, hc]) (fun _ => id) (by simp [goTo])
  | untiled hp hb hc hi hz => exact h.still hf format (by simp [happenings, hp, hb, hc, hi, hz]) (fun _ => id) (by simp)
  | @begin command commands tick hp hb hc hpos ht =>
    rw [happenings_begin hp hb hc hpos ht, readable_nil, List.append_nil]
    exact ⟨.start (c := { c with commands }) hb command tick s,
      (packetwise_append (by split <;> simp [Happening.data?])).2 hf⟩
  | late hp hb hc hk ht => exact h.told hf format ht (by simp [happenings, hp, hb, hc, hk]) (fun _ => id) (by simp)
  | unburst hp hb => exact h.still hf format (by simp [happenings, hp, hb]) (fun _ => id) (by simp [goTo])
  | timeless hp hb ht => exact h.still hf format (by simp [happenings_produce hp hb, ht]) (fun _ => id) (by simp [goTo])
  | early hp hb ht => exact h.still hf format (by simp [happenings_produce hp hb, ht]) (fun _ => id) (by simp [goTo])
  | @sent b hp hb ht hi =>
    rw [happenings_produce hp hb, if_neg (by simp [hi]), List.nil_append]
    exact ⟨(h.sent hb format).1, (h.sent hb format).2 hf⟩
  | @missed b hp hb ht hi =>
    rw [happenings_produce hp hb, if_pos ⟨ht, by simp [hi]⟩, readable_nil, List.append_nil]
    exact ⟨.overflowed c b _ s, (packetwise_append (by simp [Happening.data?])).2 hf⟩
  | @finished tick hp hi =>
    have hh : happenings now c l [] = [] := by simp [happenings, hp]
    rw [hh, List.nil_append]
    refine ⟨.free ?_ (by simp) _, h.finished hp format hf⟩
    exact (h.finish tick hp).1
  | abandoned hp => exact h.still hf format (by simp [happenings, hp]) (fun _ => id) (by simp [goTo])
  | stalled hp => exact h.still hf format (by simp [happenings, hp]) (fun _ => id) (fun _ => id)
  | brokeOff hp ht => exact h.told hf format ht (by simp [happenings, hp]) (fun _ => id) (by simp [goTo])
  | rested hp => exact h.still hf format (by simp [happenings, hp]) (fun _ => id) (by simp [goTo])
  | stopped hp => exact h.still hf format (by simp [happenings, hp]) (fun _ => id) (fun _ => id)

end ReceiveChain

/-- Whatever commands come in and whenever there are frames: the packets of a burst keep
to the rule, except that a burst which is stopped before its first packet, or has no
samples, ends with a packet that does not carry its start. -/
theorem bursts_framed {g : Geometry} {l : Link} (hl : Link.new g = .ok l) (format : WireFormat) (rate : Float)
    {most : Nat} (hroom : Header.size + most * format.sampleBytes ≤ g.recvFrameSize) (as : List StationAction) :
    let s := (Station.fresh format rate most l).story as
    Packetwise Framed s ∧ (Packetwise InOrder s ↔ Packetwise (fun before _ => ¬Unopened before) s) := by
  intro s
  obtain ⟨hlogged, -⟩ := Station.Logged.of_new hl format rate hroom
  have hkeep : Packetwise Framed s := by
    refine (Station.moments_keep (I := fun ms c => Attends c (Station.tell ms) ∧
      Packetwise Framed (Station.tell ms)) ?_ [] hlogged ⟨.free rfl (by simp [Station.fresh]) _, packetwise_nil⟩ as).2
    rintro ms x now heard said c' - hm hh ⟨ha, hf⟩
    rw [Station.tell_concat, hh]
    exact hm.frames ha hf x.chain.format
  refine ⟨hkeep, ?_, ?_⟩
  · intro h before k after p he hp
    exact (hkeep before k after p he hp).inOrder_iff.1 (h before k after p he hp)
  · intro h before k after p he hp
    exact (hkeep before k after p he hp).inOrder_iff.2 (h before k after p he hp)

/-- Streaming that is stopped before its first packet, and then a count of three. The empty
packet that ends the first burst has no start before it; the second burst keeps to the
rule, as both do if the stop comes after a packet. -/
theorem bursts_framed_unopened :
    let post (mode : StreamMode) (n : UInt64) : StationAction :=
      .post ((StreamCommand.now mode n : StreamCommand).encode 1 (List.replicate 28 0)).frame
    let steps (n tick : Nat) : List StationAction := List.replicate n (.chain (.at tick))
    let count := post .samplesAndDone 3 :: steps 4 8 ++ steps 1 10 ++ steps 4 12
    let early := post .startContinuous 0 :: steps 5 1 ++ [post .stopContinuous 0] ++ steps 3 2 ++ count
    let late := post .startContinuous 0 :: steps 4 4 ++ steps 1 6 ++ [post .stopContinuous 0] ++ steps 2 7 ++ count
    let g : Geometry := { recvFrameSize := 24, sendFrameSize := 28, recvFrames := 8, sendFrames := 2 }
    let flags (s : List Happening) := (dataOf s).map fun p => (p.1.startOfBurst, p.1.endOfBurst, p.2)
    ∃ l, Link.new g = .ok l ∧ Header.size + 2 * WireFormat.sampleBytes .sc16 ≤ g.recvFrameSize ∧
      let s := (Station.fresh .sc16 1 2 l).story early
      let s' := (Station.fresh .sc16 1 2 l).story late
      flags s = [(false, true, 0), (true, false, 2), (false, true, 1)] ∧ Packetwise Framed s ∧
      ¬Packetwise InOrder s ∧
      flags s' = [(true, false, 2), (false, true, 0), (true, false, 2), (false, true, 1)] ∧
      Packetwise InOrder s' := by
  intro post steps count early late g flags
  have hroom : Header.size + 2 * WireFormat.sampleBytes .sc16 ≤ g.recvFrameSize := by decide
  have hl : ∃ l, Link.new g = .ok l := ⟨_, rfl⟩
  obtain ⟨l, hl⟩ := hl
  have hearly := bursts_framed hl .sc16 1 hroom early
  have hlate := (bursts_framed hl .sc16 1 hroom late).2
  refine ⟨l, hl, hroom, ?_, hearly.1, fun h => absurd (hearly.2.1 h) ?_, ?_, hlate.2 ?_⟩ <;>
    (cases hl; decide +kernel)

end RadioStream.Sim
