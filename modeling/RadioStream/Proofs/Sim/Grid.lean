import Mathlib.Data.Nat.ModEq
import RadioStream.Proofs.Sim.Endings
import RadioStream.Proofs.Sim.Integrity
/-!
# Continuous streaming keeps its grid

A continuous burst loses packets whenever the host is slow, and goes on behind them. What it
loses are whole packets, so all that it sends starts at the tick of its beginning or a whole
number of packets after it (`KeepsGrid`). A command to start at once starts on the grid from
tick zero on whatever the clock shows. So two chains of one device that get the same command
send packets which can be laid side by side: two of them cover the same ticks, or none in
common.
-/

namespace RadioStream

/-- The ticks of its samples. -/
def DataPacket.ticks (p : DataPacket) : List Nat := List.range' p.start p.samples.length

/-- Two commands ask for the same start: both at once, or at the same time. A command asks for
the same start as itself. -/
def StreamCommand.StartsLike (c d : StreamCommand) : Prop :=
  c.immediate = d.immediate ∧ (c.immediate = false → c.time = d.time)

namespace Sim

open ReceiveChain

/-- How a burst begins: with a command, at a tick. -/
structure Beginning where
  command : StreamCommand
  tick : Nat

/-- A command to start at once begins a burst on a whole number of packets, one put off at
its time. -/
def Beginning.Placed (most : Nat) (rate : Float) (start : Beginning) : Prop :=
  if start.command.immediate then most ∣ start.tick else start.tick = (start.command.time.startTick rate).toNat

/-- Bursts that ask for the same start begin on one grid. -/
theorem Beginning.Placed.modEq {most : Nat} {rate : Float} {start start' : Beginning} (h : start.Placed most rate)
    (h' : start'.Placed most rate) (hc : start.command.StartsLike start'.command) :
    start.tick ≡ start'.tick [MOD most] := by
  unfold Placed at h h'
  rw [← hc.1] at h'
  cases hi : start.command.immediate with
  | true =>
    rw [hi, if_pos rfl] at h h'
    exact ((Nat.modEq_zero_iff_dvd).2 h).trans ((Nat.modEq_zero_iff_dvd).2 h').symm
  | false =>
    rw [hi, if_neg (by simp)] at h h'
    rw [h, h', hc.2 hi]

/-- Continuous streaming begins, and the ticks of its first packet have sixty-four bits. -/
def Beginning.Continuous (most : Nat) (start : Beginning) : Prop :=
  start.command.mode = .startContinuous ∧ start.tick + most < 2 ^ 64

/-- The tick of the next data packet, if one is to come. -/
def ReceiveChain.ahead? (c : ReceiveChain) : Option Nat :=
  match c.phase with
  | .finish tick => some tick
  | _ => c.burst.map (·.nextTick)

namespace Station

/-- What begins with an action. -/
def begun? (x : Station) (a : StationAction) : Option Beginning :=
  match x.chain.phase, x.chain.burst, x.chain.commands with
  | .begin, none, command :: _ => (x.step a).chain.ahead?.map (⟨command, ·⟩)
  | _, _, _ => none

/-- The frames that the chain puts on the link, each with the beginning that came last. -/
def framesByBurst (x : Station) (last : Option Beginning) : List StationAction → List (Option Beginning × Bytes)
  | [] => []
  | a :: as =>
    ((x.step a).log.drop x.log.length).map (fun f => (last, f.2)) ++
      (x.step a).framesByBurst ((x.begun? a).or last) as

/-- A data packet goes out in the continuous burst that begins so. -/
structure Streams (x : Station) (as : List StationAction) (start : Beginning) (p : DataPacket) : Prop where
  continuous : start.Continuous x.chain.packetSamples
  kind : p.header.kind = .data
  sent : (some start, DataPacket.bytes x.chain.format p.header p.samples) ∈ x.framesByBurst none as

end Station

/-! ## Packets of one grid -/

/-- A packet stands on the grid of packets of `most` samples through a tick: it is whole, or
the empty end of a burst. -/
structure OnGrid (most tick : Nat) (p : DataPacket) : Prop where
  timed : p.header.hasTime = true
  aligned : p.start ≡ tick [MOD most]
  whole : p.samples = [] ∨ p.samples.length = most

section Packets

variable {most s t : Nat} {p q : DataPacket} {format : WireFormat}

theorem ticks_disjoint (h : p.stop ≤ q.start) : p.ticks.Disjoint q.ticks := by
  intro tick hp hq
  rw [DataPacket.ticks, List.mem_range'_1] at hp hq
  rw [DataPacket.stop] at h
  omega

/-- Whole packets of one grid cover the same ticks or none in common. -/
theorem OnGrid.same_or_disjoint (hp : OnGrid most s p) (hq : OnGrid most t q) (hst : s ≡ t [MOD most]) :
    p.ticks = q.ticks ∨ p.ticks.Disjoint q.ticks := by
  rcases hp.whole with hp0 | hpn
  · exact .inr (by simp [DataPacket.ticks, hp0])
  rcases hq.whole with hq0 | hqn
  · exact .inr (by simp [DataPacket.ticks, hq0])
  have hpq : p.start ≡ q.start [MOD most] := (hp.aligned.trans hst).trans hq.aligned.symm
  rcases Nat.lt_trichotomy p.start q.start with hlt | heq | hgt
  · have hle := Nat.le_of_dvd (by omega) ((Nat.modEq_iff_dvd' hlt.le).1 hpq)
    exact .inr (ticks_disjoint (by rw [DataPacket.stop]; omega))
  · exact .inl (by rw [DataPacket.ticks, DataPacket.ticks, heq, hpn, hqn])
  · have hle := Nat.le_of_dvd (by omega) ((Nat.modEq_iff_dvd' hgt.le).1 hpq.symm)
    have hd : q.ticks.Disjoint p.ticks := ticks_disjoint (by rw [DataPacket.stop]; omega)
    exact .inr fun _ hp hq => hd hq hp

/-- The bytes of a packet tell where it stands. -/
theorem OnGrid.of_bytes (hp : OnGrid most t p)
    (h : DataPacket.bytes format q.header q.samples = DataPacket.bytes format p.header p.samples) :
    OnGrid most t q := by
  have hd := congrArg Header.decode h
  rw [DataPacket.decode_bytes, DataPacket.decode_bytes] at hd
  injection hd with hd
  injection hd with hh
  injection hh with _ htime _ _ _ _ _ hstamp
  have hlen : q.samples.length = p.samples.length := by
    have hl := congrArg List.length h
    simp only [DataPacket.bytes, List.length_append, Header.length_bytes, format.length_flatMap_encode] at hl
    exact Nat.eq_of_mul_eq_mul_right (format.sampleBytes_pos) (Nat.add_left_cancel hl)
  refine ⟨htime.trans hp.timed, ?_, ?_⟩
  · rw [DataPacket.start, hstamp]
    exact hp.aligned
  · rw [← List.length_eq_zero_iff, hlen, List.length_eq_zero_iff]
    exact hp.whole

end Packets

/-! ## Moves -/

/-- A tick of the grid with room for one more packet. -/
def GridTick (most tick t : Nat) : Prop := t ≡ tick [MOD most] ∧ t + most < 2 ^ 64

namespace ReceiveChain

/-- The chain streams continuously on a grid, or sends the end of such a burst, or is done
with it. -/
structure KeepsGrid (tick : Nat) (c : ReceiveChain) : Prop where
  burst : ∀ b ∈ c.burst, b.mode = .startContinuous ∧ GridTick c.packetSamples tick b.nextTick
  ending : ∀ t, c.phase = .finish t → GridTick c.packetSamples tick t

section Moves

variable {now : Reading} {c c' : ReceiveChain} {l : Link} {heard : List Bytes} {said : List Emission} {b : Burst}
  {tick : Nat}

theorem count_continuous (hm : b.mode = .startContinuous) (most : Nat) : b.count most = most := by
  simp [Burst.count, hm, StreamMode.isFixedCount]

theorem advanced_continuous (c : ReceiveChain) (hm : b.mode = .startContinuous) (n : Nat) :
    c.advanced b n = { c with sequence := c.sequence + 1, phase := .listen, burst := some (b.sent n) } := by
  simp [advanced, Burst.sent, hm, StreamMode.isFixedCount]

theorem overflowed_continuous (c : ReceiveChain) (hm : b.mode = .startContinuous) (n : Nat) :
    c.overflowed b n =
      { c with overflow := some (b.nextTick + n), phase := .listen, burst := some (b.skipped n) } := by
  simp [overflowed, Burst.skipped, hm, StreamMode.isFixedCount]

theorem start_closing (c : ReceiveChain) (h : tick < 2 ^ 64) : (c.closing tick).start = tick :=
  UInt64.toNat_ofNat_of_lt' h

namespace KeepsGrid

/-- What neither moves the burst nor ends one. -/
theorem quiet (h : c.KeepsGrid tick) (hn : c'.packetSamples = c.packetSamples) (hb : ∀ b ∈ c'.burst, b ∈ c.burst)
    (hp : ∀ t, c'.phase ≠ .finish t) : c'.KeepsGrid tick where
  burst b hb' := by
    rw [hn]
    exact h.burst b (hb b hb')
  ending t ht := absurd ht (hp t)

/-- A chain with a burst that is on. -/
theorem of_burst (hb : c.burst = some b) (hm : b.mode = .startContinuous)
    (hg : GridTick c.packetSamples tick b.nextTick) (hp : c.phase = .produce ∨ c.phase = .listen) :
    c.KeepsGrid tick where
  burst b' hb' := by
    rw [hb, Option.mem_some_iff] at hb'
    subst hb'
    exact ⟨hm, hg⟩
  ending t ht := by
    rw [ht] at hp
    rcases hp with hp | hp <;> cases hp

theorem handle (h : c.KeepsGrid tick) (command : StreamCommand) : (c.handle command).KeepsGrid tick where
  burst b hb := by
    rw [(c.handle_keeps command).2.2.1]
    exact h.burst b (burst_handle hb)
  ending t ht := by
    rw [(c.handle_keeps command).2.2.1]
    rcases c.phase_handle command with hp | ⟨-, b, hb, hp⟩
    · rw [hp] at ht
      cases ht
    · rw [hp] at ht
      cases ht
      exact (h.burst b hb).2

/-- A packet further, sent or lost. -/
theorem further (h : c.KeepsGrid tick) (hclear : now.Clear c.packetSamples) (hb : c.burst = some b)
    (hdue : now.left? (b.nextTick + b.count c.packetSamples) = some 0) :
    b.mode = .startContinuous ∧ GridTick c.packetSamples tick (b.nextTick + b.count c.packetSamples) := by
  obtain ⟨hm, hmod, hlt⟩ := h.burst b hb
  rw [count_continuous hm] at hdue ⊢
  exact ⟨hm, by simpa [Nat.ModEq] using hmod, hclear _ hlt hdue⟩

/-- A move that begins nothing. -/
theorem move (h : c.KeepsGrid tick) (hclear : now.Clear c.packetSamples) (hm : Move now c l heard said c')
    (hn : c.phase = .begin → c.burst = none → c.commands ≠ [] → c'.ahead? = none) : c'.KeepsGrid tick := by
  cases hm with
  | heard => exact h.handle _
  | @begin command commands t hp hb hc =>
    have ha := hn hp hb (by simp [hc])
    unfold ReceiveChain.start at ha ⊢
    split at ha
    · next hz =>
      rw [if_pos hz]
      refine h.quiet rfl (fun b hb' => hb') fun t ht => ?_
      -- the end of a burst would be a packet to come
      rw [ahead?, ht] at ha
      cases ha
    · cases ha
  | sent _ hb hdue =>
    obtain ⟨hm, hg⟩ := h.further hclear hb hdue
    rw [advanced_continuous c hm]
    exact of_burst rfl hm hg (.inr rfl)
  | missed _ hb hdue =>
    obtain ⟨hm, hg⟩ := h.further hclear hb hdue
    rw [overflowed_continuous c hm]
    exact of_burst rfl hm hg (.inr rfl)
  | unreported =>
    refine h.quiet rfl (fun _ hb => hb) fun t ht => ?_
    rw [goTo] at ht
    split at ht <;> cases ht
  | stalled => exact h
  | stopped => exact h
  | _ => exact h.quiet rfl (fun _ hb => hb) (by simp [goTo])

/-- What goes out stands on the grid. -/
theorem onGrid (h : c.KeepsGrid tick) (hm : Move now c l heard said c') :
    ∀ p, .data p ∈ said → OnGrid c.packetSamples tick p := by
  intro p hp
  cases hm with
  | @sent b _ hb =>
    rw [List.mem_singleton, Emission.data.injEq] at hp
    subst hp
    obtain ⟨hm, hmod, hlt⟩ := h.burst b hb
    refine ⟨rfl, ?_, .inr ?_⟩
    · rw [c.start_packet (by omega)]
      exact hmod
    · rw [length_packet, count_continuous hm]
  | @finished t ht =>
    rw [List.mem_singleton, Emission.data.injEq] at hp
    subst hp
    obtain ⟨hmod, hlt⟩ := h.ending t ht
    refine ⟨rfl, ?_, .inl rfl⟩
    rw [c.start_closing (by omega)]
    exact hmod
  | late _ _ _ _ ht => cases ht <;> simp at hp
  | brokeOff _ ht => cases ht <;> simp at hp
  | _ => simp at hp

end KeepsGrid

/-- A command that begins starts where it asks to. -/
theorem placed_of_startTick? {command : StreamCommand} (h : c.startTick? now.tick command = some tick) :
    Beginning.Placed c.packetSamples c.rate ⟨command, tick⟩ := by
  unfold startTick? at h
  unfold Beginning.Placed
  by_cases hi : command.immediate = true
  · rw [if_pos hi, Option.some.injEq] at h
    rw [if_pos hi]
    exact Dvd.intro_left _ h
  · rw [if_neg hi] at h
    rw [if_neg hi]
    dsimp only at h
    split at h
    · cases h
    · exact (Option.some.inj h).symm

/-- What is ahead after a command has begun starts with it. -/
theorem ahead?_start (c : ReceiveChain) (hb : c.burst = none) {command : StreamCommand} {t : Nat}
    (ha : (c.start command t).ahead? = some tick) : tick = t := by
  unfold ReceiveChain.start at ha
  split at ha
  · by_cases hd : command.mode = .samplesAndDone
    · rw [if_pos hd] at ha
      exact (Option.some.inj ha).symm
    · rw [if_neg hd, ahead?, goTo, hb] at ha
      cases ha
  · exact (Option.some.inj ha).symm

theorem KeepsGrid.start (c : ReceiveChain) {command : StreamCommand}
    (h : Beginning.Continuous c.packetSamples ⟨command, tick⟩) : (c.start command tick).KeepsGrid tick := by
  obtain ⟨hm, hlt⟩ := h
  have hs : c.start command tick = { c with burst := some (.ofCommand command tick true), phase := .produce } := by
    simp [ReceiveChain.start, show command.mode = .startContinuous from hm, StreamMode.isFixedCount]
  rw [hs]
  exact of_burst rfl hm ⟨rfl, hlt⟩ (.inl rfl)

/-- A move that begins something. -/
theorem Move.begun (hm : Move now c l heard said c') {command : StreamCommand} {commands : List StreamCommand}
    (hp : c.phase = .begin) (hb : c.burst = none) (hc : c.commands = command :: commands)
    (ha : c'.ahead? = some tick) :
    Beginning.Placed c.packetSamples c.rate ⟨command, tick⟩ ∧
      (Beginning.Continuous c.packetSamples ⟨command, tick⟩ → c'.KeepsGrid tick) := by
  cases hm with
  | @begin command' commands' t _ _ hc' _ ht =>
    rw [hc] at hc'
    cases hc'
    obtain rfl := ahead?_start { c with commands } hb ha
    exact ⟨placed_of_startTick? ht, fun hs => KeepsGrid.start { c with commands } hs⟩
  | goOn _ hb' =>
    rw [hb] at hb'
    cases hb'
  | idle _ _ hc' =>
    rw [hc] at hc'
    cases hc'
  | untiled => simp [ahead?, hb] at ha
  | late => simp [ahead?, hb] at ha
  | _ => simp_all

end Moves

end ReceiveChain

/-! ## Runs -/

namespace Station

variable {room : Nat} {x : Station} {es : List (Nat × Emission)} {a : StationAction} {as : List StationAction}
  {start : Beginning} {last : Option Beginning}

theorem begun?_eq_some_iff :
    x.begun? a = some start ↔ x.chain.phase = .begin ∧ x.chain.burst = none ∧
      (∃ commands, x.chain.commands = start.command :: commands) ∧ (x.step a).chain.ahead? = some start.tick := by
  unfold begun?
  split
  · next command commands hp hb hc =>
    rw [hp, hb, hc, Option.map_eq_some_iff]
    constructor
    · rintro ⟨t, ht, rfl⟩
      exact ⟨rfl, rfl, ⟨_, rfl⟩, ht⟩
    · rintro ⟨-, -, ⟨_, h⟩, ht⟩
      cases h
      exact ⟨_, ht, rfl⟩
  · next hn =>
    refine ⟨fun h => (by cases h), ?_⟩
    rintro ⟨hp, hb, ⟨commands, hc⟩, -⟩
    exact absurd hc (hn _ _ hp hb)

/-- Nothing begins by what the host does. -/
theorem begun?_host (hc : (x.step a).chain = x.chain) : x.begun? a = none := by
  rw [Option.eq_none_iff_forall_ne_some]
  intro start h
  obtain ⟨hp, hb, -, ha⟩ := begun?_eq_some_iff.1 h
  rw [hc, ahead?, hp, hb] at ha
  cases ha

/-- A burst that sends has begun. -/
theorem exists_begun {frame : Bytes} (h : (some start, frame) ∈ x.framesByBurst last as) :
    last = some start ∨ ∃ before a, (x.run before).begun? a = some start := by
  induction as generalizing x last with
  | nil => cases h
  | cons a as ih =>
    rw [framesByBurst, List.mem_append, List.mem_map] at h
    rcases h with ⟨f, -, he⟩ | h
    · cases he
      exact .inl rfl
    · rcases ih h with hl | ⟨before, a', hb⟩
      · rcases Option.or_eq_some_iff.1 hl with hb | ⟨-, hl⟩
        · exact .inr ⟨[], a, hb⟩
        · exact .inl hl
      · exact .inr ⟨a :: before, a', hb⟩

/-- A burst that begins is where its command asks for, and keeps its grid if it is to. -/
theorem Logged.begun (h : x.Logged room es) (hs : x.begun? a = some start) :
    start.Placed x.chain.packetSamples x.chain.rate ∧
      (start.Continuous x.chain.packetSamples → (x.step a).chain.KeepsGrid start.tick) := by
  obtain ⟨hp, hb, ⟨commands, hc⟩, ha⟩ := begun?_eq_some_iff.1 hs
  cases hr : a.reading? with
  | none =>
    rw [begun?_host (h.host hr).1] at hs
    cases hs
  | some now =>
    cases a with
    | chain now' =>
      obtain ⟨heard, said, hm, -⟩ := h.tick now'
      exact hm.begun hp hb hc ha
    | post | take | release | close => cases hr

/-- Where nothing begins, the chain stays on its grid. -/
theorem Logged.keepsGrid (h : x.Logged room es) {tick : Nat} (hk : x.chain.KeepsGrid tick)
    (hclear : ∀ now ∈ a.reading?, now.Clear x.chain.packetSamples) (hn : x.begun? a = none) :
    (x.step a).chain.KeepsGrid tick := by
  cases hr : a.reading? with
  | none =>
    rw [(h.host hr).1]
    exact hk
  | some now =>
    cases a with
    | chain now' =>
      cases hr
      obtain ⟨heard, said, hm, -⟩ := h.tick now
      refine hk.move (hclear now rfl) hm fun hp hb hc => ?_
      rw [Option.eq_none_iff_forall_ne_some] at hn ⊢
      intro t ht
      obtain ⟨command, commands, hc⟩ := List.exists_cons_of_ne_nil hc
      exact hn ⟨command, t⟩ (begun?_eq_some_iff.2 ⟨hp, hb, ⟨commands, hc⟩, ht⟩)
    | post | take | release | close => cases hr

/-- What a chain on its grid puts on the link. -/
theorem Logged.onGrid_step (h : x.Logged room es) {tick : Nat} (hk : x.chain.KeepsGrid tick) :
    ∀ f ∈ (x.step a).log.drop x.log.length, ∃ e : Emission, f.2 = e.bytes x.chain.format ∧
      ∀ p, e = .data p → OnGrid x.chain.packetSamples tick p := by
  intro f hf
  cases hr : a.reading? with
  | none =>
    obtain ⟨hc, -, hl, -⟩ := h.host hr
    rw [hl.log, hc, ← h.log, List.drop_length] at hf
    cases hf
  | some now =>
    cases a with
    | chain now' =>
      obtain ⟨heard, said, hm, -, hl, -⟩ := h.tick now'
      rw [Station.step, h.log_tick hl hm.fixed.1, List.drop_left, List.mem_map] at hf
      obtain ⟨e, he, rfl⟩ := hf
      exact ⟨e, rfl, fun p hp => hk.onGrid hm p (hp ▸ he)⟩
    | post | take | release | close => cases hr

/-- Every frame of a continuous burst. -/
theorem Logged.onGrid_run (h : x.Logged room es)
    (hclear : ∀ now ∈ readings as, now.Clear x.chain.packetSamples)
    (hlast : ∀ start ∈ last, start.Continuous x.chain.packetSamples → x.chain.KeepsGrid start.tick) {frame : Bytes}
    (hf : (some start, frame) ∈ x.framesByBurst last as) (hs : start.Continuous x.chain.packetSamples) :
    ∃ e : Emission, frame = e.bytes x.chain.format ∧
      ∀ p, e = .data p → OnGrid x.chain.packetSamples start.tick p := by
  induction as generalizing x es last with
  | nil => cases hf
  | cons a as ih =>
    rw [readings_cons, List.forall_mem_append] at hclear
    rw [Station.framesByBurst, List.mem_append, List.mem_map] at hf
    rcases hf with ⟨f, hf, he⟩ | hf
    · cases he
      exact h.onGrid_step (hlast start rfl hs) f hf
    · obtain ⟨⟨es', hl⟩, hformat, -, hmost⟩ := h.step a
      rw [← hmost] at hclear hs
      rw [← hmost, ← hformat]
      refine ih hl hclear.2 (fun start' hs' hc => ?_) hf hs
      rw [hmost] at hc
      rcases Option.or_eq_some_iff.1 hs' with hb | ⟨hb, hl'⟩
      · exact (h.begun hb).2 hc
      · exact h.keepsGrid (hlast start' hl' hc) (by simpa [hmost] using hclear.1) hb

/-- At any time of a run. -/
theorem Logged.placed (h : x.Logged room es) (before : List StationAction)
    (hs : (x.run before).begun? a = some start) : start.Placed x.chain.packetSamples x.chain.rate := by
  obtain ⟨⟨es', hl⟩, -, hrate, hmost⟩ := h.run before
  rw [← hrate, ← hmost]
  exact (hl.begun hs).1

theorem Streams.placed (h : x.Logged room es) {p : DataPacket} (hp : x.Streams as start p) :
    start.Placed x.chain.packetSamples x.chain.rate := by
  rcases exists_begun hp.sent with hn | ⟨before, a, hb⟩
  · cases hn
  · exact h.placed before hb

/-- Every data packet of a continuous burst. -/
theorem Streams.onGrid (h : x.Logged room es)
    (hclear : ∀ now ∈ readings as, now.Clear x.chain.packetSamples) {p : DataPacket} (hp : x.Streams as start p) :
    OnGrid x.chain.packetSamples start.tick p := by
  obtain ⟨e, he, hgrid⟩ := h.onGrid_run hclear (by simp) hp.sent hp.continuous
  cases e with
  | data q => exact (hgrid q rfl).of_bytes he
  | status code tick =>
    obtain ⟨n, hn⟩ := Incoming.ofFrame_bytes x.chain.format p.samples hp.kind
    rw [he, Emission.bytes, ofFrame_statusBytes] at hn
    cases hn

/-- Packets of two chains with packets of one size and clocks of one rate. -/
theorem Streams.same_or_disjoint {y : Station} {room' : Nat} {es' : List (Nat × Emission)} {bs : List StationAction}
    {start' : Beginning} {p q : DataPacket} (hp : x.Streams as start p) (hx : x.Logged room es)
    (hclear : ∀ now ∈ readings as, now.Clear x.chain.packetSamples) (hq : y.Streams bs start' q)
    (hy : y.Logged room' es') (hclear' : ∀ now ∈ readings bs, now.Clear y.chain.packetSamples)
    (hxy : y.chain.packetSamples = x.chain.packetSamples ∧ y.chain.rate = x.chain.rate)
    (hc : start.command.StartsLike start'.command) : p.ticks = q.ticks ∨ p.ticks.Disjoint q.ticks := by
  have hs' := hq.placed hy
  have hg' := hq.onGrid hy hclear'
  rw [hxy.1, hxy.2] at hs'
  rw [hxy.1] at hg'
  exact (hp.onGrid hx hclear).same_or_disjoint hg' ((hp.placed hx).modEq hs' hc)

end Station

/-- Whatever the host does and whenever the chain finds no frame: what is sent in a
continuous burst stands on one grid, which a command to start at once lays through tick zero
and one put off through its time. So packets that two chains send in bursts that ask for the
same start cover the same ticks or none in common. -/
theorem continuous_keeps_grid {g g' : Geometry} {l l' : Link} (hl : Link.new g = .ok l) (hl' : Link.new g' = .ok l')
    (format format' : WireFormat) (rate : Float) {most : Nat}
    (hroom : Header.size + most * format.sampleBytes ≤ g.recvFrameSize)
    (hroom' : Header.size + most * format'.sampleBytes ≤ g'.recvFrameSize) {as bs : List StationAction}
    (hclear : ∀ now ∈ readings as, now.Clear most) (hclear' : ∀ now ∈ readings bs, now.Clear most) :
    let x := Station.fresh format rate most l
    let y := Station.fresh format' rate most l'
    (∀ before a start, (x.run before).begun? a = some start → start.Placed most rate) ∧
      (∀ start p, x.Streams as start p → OnGrid most start.tick p) ∧
      ∀ start start' p q, x.Streams as start p → y.Streams bs start' q → start.command.StartsLike start'.command →
        p.ticks = q.ticks ∨ p.ticks.Disjoint q.ticks := by
  intro x y
  obtain ⟨hx, -⟩ := Station.Logged.of_new hl format rate hroom
  obtain ⟨hy, -⟩ := Station.Logged.of_new hl' format' rate hroom'
  refine ⟨fun before a start => hx.placed before, fun start p hp => hp.onGrid hx hclear, ?_⟩
  exact fun start start' p q hp hq hc => hp.same_or_disjoint hx hclear hq hy hclear' ⟨rfl, rfl⟩ hc

/-- One chain starts at tick two and loses its third packet, the other starts a packet later
and loses none: behind the loss the first is back on the grid of the second. -/
theorem continuous_keeps_grid_overflow :
    let post (mode : StreamMode) : StationAction :=
      .post ((StreamCommand.now mode 0 : StreamCommand).encode 1 (List.replicate 28 0)).frame
    let steps (n tick : Nat) : List StationAction := List.replicate n (.chain (.at tick))
    let before := post .startContinuous :: steps 3 1
    let as := before ++ steps 1 1 ++ steps 1 4 ++ steps 4 6 ++ steps 4 8 ++ [.take, .release 0] ++ steps 2 9 ++
      [.take, .release 0] ++ steps 2 10
    let bs := post .startContinuous :: steps 4 3 ++ steps 1 6 ++ steps 4 8 ++ steps 4 10
    let g (frames : Nat) : Geometry :=
      { recvFrameSize := 24, sendFrameSize := 28, recvFrames := frames, sendFrames := 1 }
    let p (first : Bool) : DataPacket :=
      ⟨{ startOfBurst := first, hasTime := true, sequence := 2, timestamp := 8 }, [ramp 8, ramp 9]⟩
    ∃ l l', Link.new (g 2) = .ok l ∧ Link.new (g 4) = .ok l' ∧
      Header.size + 2 * WireFormat.sampleBytes .sc16 ≤ (g 2).recvFrameSize ∧
      Header.size + 2 * WireFormat.sampleBytes .sc16 ≤ (g 4).recvFrameSize ∧
      (∀ now ∈ readings as, now.Clear 2) ∧ (∀ now ∈ readings bs, now.Clear 2) ∧
      let x := Station.fresh .sc16 1 2 l
      let y := Station.fresh .sc16 1 2 l'
      (∃ start, (x.run before).begun? (.chain (.at 1)) = some start ∧ start.tick = 2 ∧ start.Placed 2 1) ∧
      ∃ start start', x.Streams as start (p true) ∧ start.tick = 2 ∧ OnGrid 2 start.tick (p true) ∧
        y.Streams bs start' (p false) ∧ start'.tick = 4 ∧ start.command.StartsLike start'.command ∧
        ((p true).ticks = (p false).ticks ∨ (p true).ticks.Disjoint (p false).ticks) := by
  intro post steps before as bs g p
  have hl : ∃ l, Link.new (g 2) = .ok l := ⟨_, rfl⟩
  have hl' : ∃ l, Link.new (g 4) = .ok l := ⟨_, rfl⟩
  obtain ⟨l, hl⟩ := hl
  obtain ⟨l', hl'⟩ := hl'
  have hroom (n : Nat) : Header.size + 2 * WireFormat.sampleBytes .sc16 ≤ (g n).recvFrameSize := by
    simp [g, Header.size, WireFormat.sampleBytes]
  have hclear : ∀ now ∈ readings as, now.Clear 2 :=
    clear_of_ticks [1, 1, 1, 1, 4, 6, 6, 6, 6, 8, 8, 8, 8, 9, 9, 10, 10] rfl (by decide)
  have hclear' : ∀ now ∈ readings bs, now.Clear 2 :=
    clear_of_ticks [3, 3, 3, 3, 6, 8, 8, 8, 8, 10, 10, 10, 10] rfl (by decide)
  obtain ⟨hplaced, hgrid, hpair⟩ := continuous_keeps_grid hl hl' .sc16 .sc16 1 (hroom 2) (hroom 4) hclear hclear'
  have hbegun : ∃ start, ((Station.fresh .sc16 1 2 l).run before).begun? (.chain (.at 1)) = some start ∧
      start.tick = 2 := by
    refine Option.map_eq_some_iff.1 (?_ : _ = some 2)
    cases hl
    decide +kernel
  -- doubles cannot be told apart by computing, so a burst is found without the time of its command
  have hfind {l : Link} {cs : List StationAction} {q : DataPacket} {tick : Nat} (hk : q.header.kind = .data)
      (hlt : tick + 2 < 2 ^ 64)
      (h : ((Station.fresh .sc16 1 2 l).framesByBurst none cs).any (fun f => (f.1.any fun s =>
        s.command.mode == .startContinuous && s.command.immediate && s.tick == tick) &&
        f.2 == DataPacket.bytes .sc16 q.header q.samples) = true) :
      ∃ start, (Station.fresh .sc16 1 2 l).Streams cs start q ∧ start.tick = tick ∧
        start.command.immediate = true := by
    obtain ⟨⟨first, frame⟩, hf, h⟩ := List.any_eq_true.1 h
    cases first with
    | none => simp at h
    | some start =>
      simp only [Option.any_some, Bool.and_eq_true, beq_iff_eq] at h
      obtain ⟨⟨⟨hm, hi⟩, rfl⟩, rfl⟩ := h
      exact ⟨start, ⟨⟨hm, hlt⟩, hk, hf⟩, rfl, hi⟩
  have hx : ∃ start, (Station.fresh .sc16 1 2 l).Streams as start (p true) ∧ start.tick = 2 ∧
      start.command.immediate = true := by
    refine hfind rfl (by decide) ?_
    cases hl
    decide +kernel
  have hy : ∃ start, (Station.fresh .sc16 1 2 l').Streams bs start (p false) ∧ start.tick = 4 ∧
      start.command.immediate = true := by
    refine hfind rfl (by decide) ?_
    cases hl'
    decide +kernel
  obtain ⟨first, hb, ht⟩ := hbegun
  obtain ⟨start, hp, hs, hi⟩ := hx
  obtain ⟨start', hp', hs', hi'⟩ := hy
  have hlike : start.command.StartsLike start'.command := ⟨hi.trans hi'.symm, fun hn => by simp [hi] at hn⟩
  exact ⟨l, l', hl, hl', hroom 2, hroom 4, hclear, hclear', ⟨first, hb, ht, hplaced before _ first hb⟩,
    start, start', hp, hs, hgrid start _ hp, hp', hs', hlike, hpair start start' _ _ hp hp' hlike⟩

end Sim

end RadioStream
