import RadioStream.Proofs.Sim.Story
/-!
# Overflows are announced

Packets that find no frame are skipped, and the chain owes the host the report of an
overflow. It tries to report at each turn, but while a burst goes on it does not wait for
the report: the turn goes on to the next packet, and a stop to the empty packet that ends
the burst. If a frame has become free in between, that packet overtakes the report.

`overflow_announced` says that this is the only way in which a data packet can come before
the report, and that it cannot happen if the frames have room for a report, the host lets
no frame go between a report and the packet of the same turn, and does not stop a burst
that is behind.
-/

namespace RadioStream.Sim

open ReceiveChain

/-- A packet was skipped, and no overflow has been reported since. -/
def Owed (s : List Happening) : Prop :=
  ∃ before h between, s = before ++ h :: between ∧ h.isSkip = true ∧ ∀ k ∈ between, k.isOverflow = false

/-- No data packet is sent as long as an overflow is owed. -/
def Announced (s : List Happening) : Prop := Packetwise (fun before _ => ¬Owed before) s

section Stories

variable {s hs : List Happening} {h : Happening}

theorem not_owed_nil : ¬Owed [] := by
  rintro ⟨before, h, between, he, -⟩
  exact absurd he (by simp)

theorem owed_concat : Owed (s ++ [h]) ↔ h.isSkip = true ∨ Owed s ∧ h.isOverflow = false := by
  constructor
  · rintro ⟨before, k, between, he, hk, hq⟩
    rcases concat_eq_append_cons_iff.1 he with ⟨-, -, rfl⟩ | ⟨front, rfl, rfl⟩
    · exact .inl hk
    · rw [List.forall_mem_append, List.forall_mem_singleton] at hq
      exact .inr ⟨⟨before, k, front, rfl, hk, hq.1⟩, hq.2⟩
  · rintro (hk | ⟨⟨before, k, between, rfl, hk, hq⟩, ho⟩)
    · exact ⟨s, h, [], rfl, hk, by simp⟩
    · refine ⟨before, k, between ++ [h], by simp, hk, ?_⟩
      rw [List.forall_mem_append, List.forall_mem_singleton]
      exact ⟨hq, ho⟩

theorem announced_concat : Announced (s ++ [h]) ↔ Announced s ∧ (h.data?.isSome = true → ¬Owed s) := by
  rw [Announced, packetwise_concat, ← Announced, Option.isSome_iff_exists]
  simp only [forall_exists_index]

/-- What is neither a loss nor a report nor a packet changes nothing. -/
theorem owed_announced_append (hq : ∀ k ∈ hs, k.isSkip = false ∧ k.isOverflow = false ∧ k.data? = none) :
    (Owed (s ++ hs) ↔ Owed s) ∧ (Announced (s ++ hs) ↔ Announced s) := by
  refine ⟨?_, packetwise_append fun k hk => (hq k hk).2.2⟩
  induction hs using List.reverseRecOn with
  | nil => rw [List.append_nil]
  | append_singleton hs k ih =>
    rw [List.forall_mem_append, List.forall_mem_singleton] at hq
    obtain ⟨hs', hskip, ho, -⟩ := hq
    rw [← List.append_assoc, owed_concat, ih hs', hskip, ho]
    simp

end Stories

/-! ## One step -/

namespace ReceiveChain

/-- Whether a data packet is sent while an overflow is owed. -/
def overtakes (now : Reading) (c : ReceiveChain) (l : Link) : Bool :=
  c.overflow.isSome && !l.toHost.home.idle.items.isEmpty &&
    match c.phase, c.burst with
    | .produce, some b => now.left? (b.nextTick + b.count c.packetSamples) == some 0
    | .finish _, _ => true
    | _, _ => false

variable {now : Reading} {c c' : ReceiveChain} {l : Link} {heard : List Bytes} {said : List Emission}

/-- What happens beside what is sent is no report and no packet, and a loss only when a
packet is due. -/
theorem happenings_quiet (now : Reading) (c : ReceiveChain) (l : Link) (heard : List Bytes) :
    ∀ k ∈ happenings now c l heard,
      (c.phase ≠ .produce → k.isSkip = false) ∧ k.isOverflow = false ∧ k.data? = none := by
  intro k hk
  unfold happenings at hk
  split at hk
  · next hp _ =>
    split at hk
    · rw [List.mem_singleton.1 hk]
      exact ⟨fun _ => rfl, rfl, rfl⟩
    · cases hk
  · split at hk
    · cases hk
    · split at hk
      · cases hk
      · split at hk
        · cases hk
        · have hb : k = .began ∨ k = .stopped := by
            split at hk <;> simp at hk <;> tauto
          rcases hb with rfl | rfl <;> exact ⟨fun _ => rfl, rfl, rfl⟩
  · next hp _ =>
    split at hk
    · rw [List.mem_singleton.1 hk]
      exact ⟨fun h => absurd hp h, rfl, rfl⟩
    · cases hk
  · cases hk

/-- What a step does to what is owed and to what was announced. -/
structure Keeps (now : Reading) (c : ReceiveChain) (l : Link) (c' : ReceiveChain) (s s' : List Happening) : Prop where
  owed : (Owed s ↔ c.overflow.isSome = true) → (Owed s' ↔ c'.overflow.isSome = true)
  announced : (Owed s ↔ c.overflow.isSome = true) → (Announced s' ↔ Announced s ∧ overtakes now c l = false)

/-- A step at which nothing is lost, reported or sent as data. -/
theorem Keeps.quiet {s hs : List Happening}
    (hq : ∀ k ∈ hs, k.isSkip = false ∧ k.isOverflow = false ∧ k.data? = none) (ho : c'.overflow = c.overflow)
    (hover : overtakes now c l = false) : Keeps now c l c' s (s ++ hs) := by
  obtain ⟨h₁, h₂⟩ := owed_announced_append (s := s) hq
  refine ⟨fun h => ?_, fun _ => ?_⟩
  · rw [h₁, ho, h]
  · rw [h₂, hover]
    simp

/-- A data packet. -/
theorem Keeps.data {s : List Happening} {h : Header} {n : Nat} (ho : c'.overflow = c.overflow)
    (hover : overtakes now c l = c.overflow.isSome) : Keeps now c l c' s (s ++ [.sent (.data h n)]) := by
  refine ⟨fun hs => ?_, fun hs => ?_⟩
  · rw [owed_concat, ho, ← hs]
    simp [Happening.isSkip, Happening.isOverflow]
  · rw [announced_concat, hs, hover]
    simp [Happening.data?]

/-- A report of something else leaves what is owed as it is. -/
theorem readable_told {code : RxCode} {tick : Nat} (ht : Told l code tick said) (hc : code ≠ .overflow)
    (format : WireFormat) : ∀ k ∈ readable format said, k.isSkip = false ∧ k.isOverflow = false ∧ k.data? = none := by
  cases ht with
  | lost => simp
  | out =>
    rw [readable_status, List.forall_mem_singleton]
    cases code <;> first | exact ⟨rfl, rfl, rfl⟩ | exact absurd rfl hc

/-- Every move keeps the books of what is owed. Only a packet that overtakes the report of
an overflow is sent without an announcement. -/
theorem Move.keeps_owed (hm : Move now c l heard said c') (format : WireFormat) (s : List Happening) :
    Keeps now c l c' s (s ++ (happenings now c l heard ++ readable format said)) := by
  have hquiet : ∀ {said : List Emission}, c.phase ≠ .produce →
      (∀ k ∈ readable format said, k.isSkip = false ∧ k.isOverflow = false ∧ k.data? = none) →
      ∀ k ∈ happenings now c l heard ++ readable format said,
        k.isSkip = false ∧ k.isOverflow = false ∧ k.data? = none := by
    intro said hp hs
    rw [List.forall_mem_append]
    exact ⟨fun k hk => ⟨(happenings_quiet _ _ _ _ k hk).1 hp, (happenings_quiet _ _ _ _ k hk).2⟩, hs⟩
  have hnone : ∀ k ∈ readable format [], k.isSkip = false ∧ k.isOverflow = false ∧ k.data? = none := by
    simp
  cases hm with
  | closed hp => exact .quiet (hquiet (by simp [hp]) hnone) rfl (by simp [overtakes, hp])
  | heard hp => exact .quiet (hquiet (by simp [hp]) hnone) (c.handle_keeps _).2.2.2.2 (by simp [overtakes, hp])
  | unheard hp => exact .quiet (hquiet (by simp [hp]) hnone) rfl (by simp [overtakes, hp])
  | settled hp => exact .quiet (hquiet (by simp [hp]) hnone) rfl (by simp [overtakes, hp])
  | @reported tick hp ho ht =>
    have hh : happenings now c l [] = [] := by simp [happenings, hp]
    rw [hh, readable_status, List.nil_append]
    refine ⟨fun _ => ?_, fun _ => ?_⟩
    · rw [owed_concat]
      simp [report, Happening.isSkip, Happening.isOverflow]
    · rw [announced_concat]
      simp [report, Happening.data?, overtakes, hp]
  | unreported hp => exact .quiet (hquiet (by simp [hp]) hnone) rfl (by simp [overtakes, hp])
  | goOn hp => exact .quiet (hquiet (by simp [hp]) hnone) rfl (by simp [overtakes, hp])
  | idle hp => exact .quiet (hquiet (by simp [hp]) hnone) rfl (by simp [overtakes, hp])
  | untiled hp => exact .quiet (hquiet (by simp [hp]) hnone) rfl (by simp [overtakes, hp])
  | begin hp => exact .quiet (hquiet (by simp [hp]) hnone) (start_keeps _ _ _).2.2.2.2 (by simp [overtakes, hp])
  | late hp _ _ _ ht =>
    exact .quiet (hquiet (by simp [hp]) (readable_told ht (by simp) format)) rfl (by simp [overtakes, hp])
  | unburst hp hb =>
    have hh : happenings now c l [] = [] := by simp [happenings, hp, hb]
    rw [hh]
    exact .quiet hnone rfl (by simp [overtakes, hp, hb])
  | timeless hp hb ht =>
    rw [happenings_produce hp hb, if_neg (by simp [ht])]
    exact .quiet hnone rfl (by simp [overtakes, hp, hb, ht])
  | early hp hb ht =>
    rw [happenings_produce hp hb, if_neg (by simp [ht])]
    exact .quiet hnone rfl (by simp [overtakes, hp, hb, ht])
  | @sent b hp hb ht hi =>
    obtain ⟨n, hn⟩ := readable_data format (show (c.packet b).header.kind = .data from rfl)
    rw [happenings_produce hp hb, if_neg (by simp [hi]), hn, List.nil_append]
    exact .data (c.advanced_keeps b _).2.2.2.1 (by simp [overtakes, hp, hb, ht, hi])
  | @missed b hp hb ht hi =>
    have ho : (c.overflowed b (b.count c.packetSamples)).overflow.isSome = true := by
      unfold overflowed
      dsimp only
      split <;> rfl
    rw [happenings_produce hp hb, if_pos ⟨ht, by simp [hi]⟩]
    refine ⟨fun _ => ?_, fun _ => ?_⟩
    · rw [ho]
      simp [owed_concat, Happening.isSkip]
    · simp [announced_concat, Happening.data?, overtakes, hi]
  | @finished tick hp hi =>
    have hh : happenings now c l [] = [] := by simp [happenings, hp]
    rw [hh, readable_closing, List.nil_append]
    exact .data rfl (by simp [overtakes, hp, hi])
  | abandoned hp hi => exact .quiet (hquiet (by simp [hp]) hnone) rfl (by simp [overtakes, hi])
  | stalled hp hi => exact .quiet (hquiet (by simp [hp]) hnone) rfl (by simp [overtakes, hi])
  | brokeOff hp ht =>
    exact .quiet (hquiet (by simp [hp]) (readable_told ht (by simp) format)) rfl (by simp [overtakes, hp])
  | rested hp => exact .quiet (hquiet (by simp [hp]) hnone) rfl (by simp [overtakes, hp])
  | stopped hp => exact .quiet (hquiet (by simp [hp]) hnone) rfl (by simp [overtakes, hp])

/-! ### Without a frame -/

/-- While an overflow is owed, the chain goes past a report only with a burst and without
a frame, and does not send the end of a burst. -/
def Behind (c : ReceiveChain) (l : Link) : Prop :=
  c.overflow.isSome = true → (∀ tick, c.phase ≠ .finish tick) ∧
    (c.phase = .begin ∨ c.phase = .produce → c.burst.isSome = true ∧ l.toHost.home.idle.items = [])

theorem Behind.overtakes (h : c.Behind l) (now : Reading) : overtakes now c l = false := by
  unfold ReceiveChain.overtakes
  cases ho : c.overflow.isSome with
  | false => rfl
  | true =>
    obtain ⟨hf, hi⟩ := h ho
    cases hp : c.phase with
    | finish tick => exact absurd hp (hf tick)
    | produce => simp [(hi (.inr hp)).2]
    | _ => simp

theorem step_report_full (hp : c.phase = .report) (ho : c.overflow.isSome = true)
    (hi : l.toHost.home.idle.items = []) : (c.step now l).2 = l := by
  obtain ⟨tick, ht⟩ := Option.isSome_iff_exists.1 ho
  unfold step reportOverflow sendStatus
  rw [hp, ht]
  dsimp only
  rw [send_full _ hi]
  rfl

theorem step_begin_burst (hp : c.phase = .begin) (hb : c.burst.isSome = true) : (c.step now l).2 = l := by
  unfold step beginBurst
  rw [hp]
  dsimp only
  rw [if_pos hb]

/-- Where a report needs no more than a frame and no stop is read, a chain that goes past
a report goes on without a frame. -/
theorem Move.behind (hm : Move now c l heard said c') (h : c.Behind l)
    (hfit : l.toHost.home.idle.items ≠ [] → statusFits l = true)
    (hstop : c.overflow.isSome = true → ∀ k ∈ happenings now c l heard, k.isStop = false)
    (howed : c'.overflow.isSome = true) :
    (∀ tick, c'.phase ≠ .finish tick) ∧ (c'.phase = .begin ∨ c'.phase = .produce →
      c'.burst.isSome = true ∧ l.toHost.home.idle.items = [] ∧
        (c.phase = .report ∧ c.overflow.isSome = true ∨ c.phase = .begin ∧ c.burst.isSome = true)) := by
  have hbegin : c.phase = .begin → c.burst = none → c.overflow.isSome = true → False := by
    intro hp hb ho
    have := ((h ho).2 (.inl hp)).1
    simp [hb] at this
  have hfinish : ∀ {tick}, c.phase = .finish tick → c.overflow.isSome = true → False :=
    fun hp ho => (h ho).1 _ hp
  cases hm with
  | @heard f command hp hf =>
    rw [(c.handle_keeps _).2.2.2.2] at howed
    rcases c.phase_handle command with hl | ⟨hm, b, hb, -⟩
    · simp [hl]
    · have := hstop howed .stopped (by rw [happenings_stop hp hb hf hm]; exact List.mem_singleton_self _)
      cases this
  | settled hp ho =>
    rw [show (c.goTo .begin).overflow = c.overflow from rfl, ho] at howed
    cases howed
  | reported => cases howed
  | @unreported tick hp ho ht =>
    cases hb : c.burst with
    | none => simp [goTo]
    | some b =>
      refine ⟨by simp [goTo], fun _ => ⟨by simp [goTo, hb], ?_, .inl ⟨hp, howed⟩⟩⟩
      by_contra hi
      cases ht with
      | lost hl => rw [hfit hi] at hl; cases hl
  | @goOn b hp hb =>
    exact ⟨by simp [goTo], fun _ => ⟨by simp [goTo, hb], ((h howed).2 (.inl hp)).2, .inr ⟨hp, by simp [hb]⟩⟩⟩
  | idle hp hb => exact (hbegin hp hb howed).elim
  | untiled hp hb => exact (hbegin hp hb howed).elim
  | begin hp hb =>
    rw [(start_keeps _ _ _).2.2.2.2] at howed
    exact (hbegin hp hb howed).elim
  | late hp hb => exact (hbegin hp hb howed).elim
  | @sent b hp _ _ hi =>
    rw [(c.advanced_keeps _ _).2.2.2.1] at howed
    exact absurd ((h howed).2 (.inr hp)).2 hi
  | @missed b =>
    have hl : (c.overflowed b (b.count c.packetSamples)).phase = .listen := by
      unfold overflowed
      dsimp only
      split <;> rfl
    simp [hl]
  | finished hp => exact (hfinish hp howed).elim
  | abandoned hp => exact (hfinish hp howed).elim
  | stalled hp => exact (hfinish hp howed).elim
  | stopped hp => simp [hp]
  | _ => simp [goTo]

end ReceiveChain

/-! ## Runs -/

namespace Station

/-- What happens does not get in the way of a report: the host lets no frame go once a
report has found none until the turn is over, and no stop is read while an overflow is
owed. -/
def yields (x : Station) : StationAction → Bool
  | .release _ => x.chain.overflow.isNone || !(x.chain.phase == .begin || x.chain.phase == .produce)
  | .chain now => x.chain.overflow.isNone || (x.happenings now).all (!·.isStop)
  | .post _ | .take | .close => true

/-- Nothing that happens in a run gets in the way of a report. -/
def yieldsAll (x : Station) : List StationAction → Bool
  | [] => true
  | a :: as => x.yields a && (x.step a).yieldsAll as

variable {room : Nat} {x : Station} {es : List (Nat × Emission)}

theorem idle_step {a : StationAction} (hr : a.reading? = none) (hy : ∀ i, a ≠ .release i) :
    (x.step a).link.toHost.home.idle = x.link.toHost.home.idle := by
  cases a with
  | chain => cases hr
  | post bs =>
    obtain ⟨lane, hl⟩ := sendBytes_host bs x.link
    rw [Station.step, hl]
  | take =>
    have ht : x.link.receive .host = (x.link.toHost.receive.1, { x.link with toHost := x.link.toHost.receive.2 }) := rfl
    rw [Station.step, ht]
    cases x.link.toHost.receive.1 <;> rfl
  | release i => exact absurd rfl (hy i)
  | close => rfl

/-- A report that finds a frame has room in it. -/
theorem Logged.statusFits (h : x.Logged room es) (hroom : Header.size + 4 ≤ room)
    (hi : x.link.toHost.home.idle.items ≠ []) : ReceiveChain.statusFits x.link = true := by
  obtain ⟨f, fs, hf⟩ := List.exists_cons_of_ne_nil hi
  have hfit := h.stocked.roomy f (by simp [hf])
  simpa [ReceiveChain.statusFits, hf] using hroom.trans hfit

/-- Nothing overtakes a report that nobody gets in the way of. -/
theorem behind_step (h : x.Logged room es) (hroom : Header.size + 4 ≤ room) (hb : x.chain.Behind x.link)
    {a : StationAction} (hy : x.yields a = true) : (x.step a).chain.Behind (x.step a).link := by
  cases hr : a.reading? with
  | none =>
    obtain ⟨hc, -⟩ := h.host hr
    intro ho
    rw [hc] at ho ⊢
    obtain ⟨hf, hi⟩ := hb ho
    refine ⟨hf, fun hp => ⟨(hi hp).1, ?_⟩⟩
    rw [idle_step hr, (hi hp).2]
    rintro i rfl
    -- the host lets no frame go in this part of a turn
    obtain ⟨tick, ht⟩ := Option.isSome_iff_exists.1 ho
    rcases hp with hp | hp <;> simp [yields, ht, hp] at hy
  | some now =>
    cases a with
    | chain now' =>
      cases hr
      obtain ⟨heard, said, hm, -, hh⟩ := h.happens now
      have hstop : x.chain.overflow.isSome = true →
          ∀ k ∈ ReceiveChain.happenings now x.chain x.link heard, k.isStop = false := by
        intro ho k hk
        obtain ⟨tick, ht⟩ := Option.isSome_iff_exists.1 ho
        simp only [yields, ht, Option.isNone_some, Bool.false_or, List.all_eq_true, Bool.not_eq_true'] at hy
        exact hy k (by rw [hh]; exact List.mem_append_left _ hk)
      intro ho
      obtain ⟨hf, hi⟩ := hm.behind hb (h.statusFits hroom) hstop ho
      refine ⟨hf, fun hp => ?_⟩
      obtain ⟨hburst, hidle, hphase⟩ := hi hp
      refine ⟨hburst, ?_⟩
      have hlink : (x.chain.step now x.link).2 = x.link := by
        rcases hphase with ⟨hp, ho⟩ | ⟨hp, hb⟩
        · exact step_report_full hp ho hidle
        · exact step_begin_burst hp hb
      show (x.chain.step now x.link).2.toHost.home.idle.items = []
      rw [hlink, hidle]
    | post | take | release | close => cases hr

theorem overtakes_of_yieldsAll (h : x.Logged room es) (hroom : Header.size + 4 ≤ room) (hb : x.chain.Behind x.link)
    {as : List StationAction} (hy : x.yieldsAll as = true) :
    ∀ m ∈ x.moments as, overtakes m.2 m.1.chain m.1.link = false := by
  induction as generalizing x es with
  | nil => simp [moments]
  | cons a as ih =>
    rw [yieldsAll, Bool.and_eq_true] at hy
    obtain ⟨⟨es', hl⟩, -⟩ := h.step a
    intro m hm
    rw [moments, List.mem_append, List.mem_map] at hm
    rcases hm with ⟨now, -, rfl⟩ | hm
    · exact hb.overtakes now
    · exact ih hl (behind_step h hroom hb hy.1) hy.2 m hm

end Station

/-- Whatever commands come in and whenever there are frames: a data packet comes before
the report of an overflow exactly where it overtakes the report, because a frame has
become free since the report found none, or because the burst is stopped. This does not
happen if the frames have room for a report and nothing gets in its way. -/
theorem overflow_announced {g : Geometry} {l : Link} (hl : Link.new g = .ok l) (format : WireFormat) (rate : Float)
    {most : Nat} (hroom : Header.size + most * format.sampleBytes ≤ g.recvFrameSize) (as : List StationAction) :
    let x := Station.fresh format rate most l
    (Announced (x.story as) ↔ ∀ m ∈ x.moments as, overtakes m.2 m.1.chain m.1.link = false) ∧
      (Header.size + 4 ≤ g.recvFrameSize → x.yieldsAll as = true → Announced (x.story as)) := by
  intro x
  obtain ⟨hlogged, -⟩ := Station.Logged.of_new hl format rate hroom
  have hkeep : (Owed (x.story as) ↔ (x.run as).chain.overflow.isSome = true) ∧
      (Announced (x.story as) ↔ ∀ m ∈ x.moments as, overtakes m.2 m.1.chain m.1.link = false) := by
    refine Station.moments_keep (I := fun ms c => (Owed (Station.tell ms) ↔ c.overflow.isSome = true) ∧
      (Announced (Station.tell ms) ↔ ∀ m ∈ ms, overtakes m.2 m.1.chain m.1.link = false)) ?_ [] hlogged ?_ as
    · rintro ms x now heard said c' - hm hh ⟨ho, ha⟩
      have hk := hm.keeps_owed x.chain.format (Station.tell ms)
      rw [Station.tell_concat, hh, List.forall_mem_append, List.forall_mem_singleton, ← ha]
      exact ⟨hk.owed ho, hk.announced ho⟩
    · exact ⟨by simp [Station.tell, not_owed_nil, Station.fresh], by simp [Station.tell, Announced, packetwise_nil]⟩
  refine ⟨hkeep.2, fun hstatus hy => hkeep.2.2 ?_⟩
  exact Station.overtakes_of_yieldsAll hlogged hstatus (fun h => by cases h) hy

/-- One frame, and the second packet is lost. If the host lets the frame go after the report
has found none, the third packet comes first; if it does so before, the report does. -/
theorem overflow_announced_overtaken :
    let post (mode : StreamMode) : StationAction :=
      .post ((StreamCommand.now mode 0 : StreamCommand).encode 1 (List.replicate 28 0)).frame
    let steps (n tick : Nat) : List StationAction := List.replicate n (.chain (.at tick))
    let lost := post .startContinuous :: steps 4 1 ++ steps 1 4 ++ steps 4 6
    let early := lost ++ steps 2 8 ++ [.take, .release 0] ++ steps 2 8 ++ [.take, .release 0] ++ steps 2 9
    let late := lost ++ [.take, .release 0] ++ steps 2 8 ++ [.take, .release 0] ++ steps 2 8
    let g : Geometry := { recvFrameSize := 24, sendFrameSize := 28, recvFrames := 1, sendFrames := 1 }
    let kinds (s : List Happening) := s.map fun h => (h.isSkip, h.isOverflow, h.data?.isSome)
    ∃ l, Link.new g = .ok l ∧ Header.size + 2 * WireFormat.sampleBytes .sc16 ≤ g.recvFrameSize ∧
      let x := Station.fresh .sc16 1 2 l
      kinds (x.story early) = [(false, false, false), (false, false, true), (true, false, false),
        (false, false, true), (false, true, false)] ∧ ¬Announced (x.story early) ∧
      kinds (x.story late) = [(false, false, false), (false, false, true), (true, false, false),
        (false, true, false), (false, false, true)] ∧ x.yieldsAll late = true ∧ Announced (x.story late) := by
  intro post steps lost early late g kinds
  have hroom : Header.size + 2 * WireFormat.sampleBytes .sc16 ≤ g.recvFrameSize := by decide
  have hl : ∃ l, Link.new g = .ok l := ⟨_, rfl⟩
  obtain ⟨l, hl⟩ := hl
  have hearly := (overflow_announced hl .sc16 1 hroom early).1
  have hlate := (overflow_announced hl .sc16 1 hroom late).2 (by decide)
  refine ⟨l, hl, hroom, ?_, fun ha => absurd (hearly.1 ha) ?_, ?_, ?_, hlate ?_⟩ <;> (cases hl; decide +kernel)

end RadioStream.Sim
