import RadioStream.Proofs.Sim.Carrying
/-!
# Chained commands

Commands for some samples each, which continue one another, are delivered exactly: in a
run in which nothing gets in the way of the chain (`Station.Undisturbed`), it carries
them out, and once the clock has passed the last tick it needs four steps for each
packet at most.
-/

namespace RadioStream.Sim

open ReceiveChain

namespace Station

/-- What the commands that a chain took ask for. -/
def asked (rate : Float) (x : Station) : List (StreamMode × Nat) := (x.heard.filterMap (command? rate)).map order

/-- No command is forgotten. -/
theorem asked_run (rate : Float) (x : Station) (as : List StationAction) : x.asked rate <+: (x.run as).asked rate := by
  induction as generalizing x with
  | nil => exact List.prefix_rfl
  | cons a as ih =>
    refine List.IsPrefix.trans ?_ (ih (x.step a))
    have hheard : x.heard <+: (x.step a).heard := by
      cases a with
      | chain => exact List.prefix_append _ _
      | post | close => exact List.prefix_rfl
      | take =>
        unfold step
        dsimp only
        split <;> exact List.prefix_rfl
      | release =>
        unfold step
        dsimp only
        split <;> exact List.prefix_rfl
    exact (hheard.filterMap _).map _

/-- The chain has nothing to do and owes no report. -/
structure Idle (x : Station) : Prop where
  burst : x.chain.burst = none
  commands : x.chain.commands = []
  overflow : x.chain.overflow = none
  /-- It looks for commands. -/
  ready : 1 < x.chain.phase.lag
  isOpen : x.link.closed = false

theorem Idle.carries {x : Station} (h : x.Idle) {j : Job} (hs : x.chain.sequence = j.sequence) :
    Carries j x.chain [] [] (4 * (sizes j.most j.counts).length + x.chain.phase.lag) := by
  have hc := Carries.waiting h.burst h.ready hs
  rw [h.commands] at hc
  exact hc

/-- A run in which nothing gets in the way of the chain. -/
structure Undisturbed (tick : Nat) (x : Station) (as : List StationAction) : Prop where
  exact : ∀ now ∈ readings as, now.Exact
  isOpen : ∀ a ∈ as, a ≠ .close
  smooth : ∀ y ∈ x.moments as, Smooth tick y.2 y.1.chain y.1.link

theorem undisturbed_append {tick : Nat} {x : Station} {as bs : List StationAction} :
    x.Undisturbed tick (as ++ bs) ↔ x.Undisturbed tick as ∧ (x.run as).Undisturbed tick bs := by
  constructor
  · rintro ⟨hexact, hopen, hs⟩
    rw [readings_append, List.forall_mem_append] at hexact
    rw [List.forall_mem_append] at hopen
    rw [moments_append, List.forall_mem_append] at hs
    exact ⟨⟨hexact.1, hopen.1, hs.1⟩, ⟨hexact.2, hopen.2, hs.2⟩⟩
  · rintro ⟨⟨hexact, hopen, hs⟩, ⟨hexact', hopen', hs'⟩⟩
    refine ⟨?_, List.forall_mem_append.2 ⟨hopen, hopen'⟩, ?_⟩
    · rw [readings_append]
      exact List.forall_mem_append.2 ⟨hexact, hexact'⟩
    · rw [moments_append]
      exact List.forall_mem_append.2 ⟨hs, hs'⟩

/-- A station whose chain does a job, with what it was asked and what it sent since. -/
structure Carrying (room : Nat) (j : Job) (rate : Float) (format : WireFormat) (before : List (StreamMode × Nat))
    (log : List Bytes) (x : Station) (ps : List DataPacket) (k : Nat) : Prop where
  logged : ∃ es, x.Logged room es
  log : x.log.map (·.2) = log ++ ps.map fun p => DataPacket.bytes format p.header p.samples
  format : x.chain.format = format
  isOpen : x.link.closed = false
  chain : ∃ asked, x.asked rate = before ++ asked ∧ Sim.Carrying j rate x.chain asked ps k

section Runs

variable {room k : Nat} {j : Job} {rate : Float} {format : WireFormat} {before : List (StreamMode × Nat)}
  {log : List Bytes} {x : Station} {ps : List DataPacket}

/-- A step of the chain. -/
theorem Carrying.step_chain (h : x.Carrying room j rate format before log ps k) {now : Reading}
    (hu : x.Undisturbed j.tick [.chain now]) (hp : (x.step (.chain now)).asked rate <+: before ++ orders j.counts) :
    ∃ ps' k', (x.step (.chain now)).Carrying room j rate format before log ps' k' ∧
      (x.asked rate = before ++ orders j.counts → j.stop ≤ now.tick → k' ≤ k - 1) := by
  have hexact : now.Exact := hu.exact now List.mem_cons_self
  have hs : Smooth j.tick now x.chain x.link := hu.smooth (x, now) List.mem_cons_self
  obtain ⟨es, hl⟩ := h.logged
  obtain ⟨asked, hasked, hc⟩ := h.chain
  obtain ⟨heard, said, hm, hheard, hl', hclosed⟩ := hl.tick now
  have hasked' : (x.tick now).asked rate = before ++ (asked ++ (heard.filterMap (command? rate)).map order) := by
    rw [Station.asked, hheard, List.filterMap_append, List.map_append, ← List.append_assoc, ← hasked]
    rfl
  rw [step, hasked', List.prefix_append_right_inj] at hp
  obtain ⟨qs, k', rfl, hc', hk⟩ := hc.move hexact h.isOpen hs hm hp
  refine ⟨ps ++ qs, k', ⟨⟨_, hl'⟩, ?_, hm.fixed.1.trans h.format, ?_, _, hasked', hc'⟩, fun hall => hk ?_⟩
  · have hlog := h.log
    rw [hl.log, h.format] at hlog
    rw [step, hl'.log, hm.fixed.1, h.format, List.map_append, List.map_append, hlog, List.map_append, List.append_assoc,
      List.map_map, List.map_map, List.map_map]
    rfl
  · rw [step, Bool.eq_false_iff]
    intro ho
    -- only a chain that ends gives up its link
    rcases hclosed ho with hx | hstop
    · cases h.isOpen.symm.trans hx
    · have hpos := hc'.carries.ready.1
      rw [hstop] at hpos
      exact absurd hpos (Nat.lt_irrefl 0)
  · rw [hasked] at hall
    exact List.append_cancel_left hall

/-- A step of the host. -/
theorem Carrying.step_host (h : x.Carrying room j rate format before log ps k) {a : StationAction}
    (ha : a.reading? = none) (hopen : a ≠ .close) :
    (x.step a).Carrying room j rate format before log ps k ∧ (x.step a).asked rate = x.asked rate := by
  obtain ⟨es, hl⟩ := h.logged
  obtain ⟨hchain, hheard, hl', hclosed⟩ := hl.host ha
  have hasked : (x.step a).asked rate = x.asked rate := by rw [asked, hheard, asked]
  refine ⟨⟨⟨es, hl'⟩, ?_, ?_, ?_, ?_⟩, hasked⟩
  · rw [hl'.log, hchain, ← hl.log]
    exact h.log
  · rw [hchain]
    exact h.format
  · rw [hclosed hopen]
    exact h.isOpen
  · rw [hchain, hasked]
    exact h.chain

/-- Undisturbed, a chain carries on whatever the host does. When all was asked and the
clock has passed the last tick, every step brings it closer to the end. -/
theorem Carrying.run (h : x.Carrying room j rate format before log ps k) {as : List StationAction}
    (hu : x.Undisturbed j.tick as) (hp : (x.run as).asked rate <+: before ++ orders j.counts) :
    ∃ ps' k', (x.run as).Carrying room j rate format before log ps' k' ∧
      (x.asked rate = before ++ orders j.counts → (∀ now ∈ readings as, j.stop ≤ now.tick) →
        k' ≤ k - (readings as).length) := by
  induction as generalizing x ps k with
  | nil => exact ⟨ps, k, h, fun _ _ => Nat.le_refl k⟩
  | cons a as ih =>
    obtain ⟨hhead, htail⟩ := undisturbed_append.1 (show x.Undisturbed j.tick ([a] ++ as) from hu)
    -- what is asked after the step is asked in the end
    have hp' := (asked_run rate (x.step a) as).trans hp
    rw [readings_cons]
    cases ha : a.reading? with
    | none =>
      obtain ⟨hstep, hasked⟩ := h.step_host ha (hhead.isOpen a List.mem_cons_self)
      rw [← hasked]
      exact ih hstep htail hp
    | some now =>
      cases a with
      | post | take | release | close => cases ha
      | chain now' =>
        cases ha
        obtain ⟨ps', k', hstep, hk⟩ := h.step_chain hhead hp'
        obtain ⟨ps'', k'', hrun, hk'⟩ := ih hstep htail hp
        refine ⟨ps'', k'', hrun, fun hall hpast => ?_⟩
        rw [List.forall_mem_append] at hpast
        have hall' : (x.step (.chain now)).asked rate = before ++ orders j.counts := by
          have hle := asked_run rate x [.chain now]
          rw [hall] at hle
          exact List.IsPrefix.eq_of_length hp' (Nat.le_antisymm hp'.length_le hle.length_le)
        have hle := hk hall (hpast.1 now List.mem_cons_self)
        have hle' := hk' hall' hpast.2
        rw [List.length_append, Option.toList_some, List.length_singleton]
        omega

end Runs

end Station

/-- Commands for some samples each that continue one another, the first for at least one
sample, come to an idle chain, which is not disturbed until the clock has passed the last
tick and the chain took four steps for each packet. Then it has sent their samples in
packets of their own, has sent nothing else and is idle again. -/
theorem chained_commands_delivered {g : Geometry} {l : Link} (hl : Link.new g = .ok l) (format : WireFormat)
    (rate : Float) {most : Nat} (hmost : 0 < most) (hroom : Header.size + most * format.sampleBytes ≤ g.recvFrameSize)
    (before : List StationAction) {tick : Nat} {ns : List Nat} {m : Nat} (hfirst : ∃ n ∈ (ns ++ [m]).head?, 0 < n)
    {as bs : List StationAction} :
    let x := (Station.fresh format rate most l).run before
    let y := x.run (as ++ bs)
    let chain := ns.map (StreamMode.samplesAndMore, ·) ++ [(.samplesAndDone, m)]
    x.Idle → x.Undisturbed tick (as ++ bs) →
    (x.run as).asked rate = x.asked rate ++ chain → y.asked rate = x.asked rate ++ chain →
    (∀ now ∈ readings bs, tick + (ns ++ [m]).sum ≤ now.tick) →
    4 * (sizes most (ns ++ [m])).length + 5 ≤ (readings bs).length →
    ∃ ps, y.log.map (·.2) = x.log.map (·.2) ++ ps.map (fun p => DataPacket.bytes format p.header p.samples) ∧
      Delivered most tick (ns ++ [m]) ps ∧ y.Idle := by
  intro x y chain hidle hu hasked hall hpast hsteps
  let j : Job := ⟨most, ns ++ [m], tick, x.chain.sequence, hmost, hfirst⟩
  have hchain : chain = orders j.counts := (orders_concat ns m).symm
  rw [hchain] at hasked hall
  obtain ⟨hfresh, -⟩ := Station.Logged.of_new hl format rate hroom
  obtain ⟨hlogged, hformat, hrate, hsamples⟩ := hfresh.run before
  have hx : x.Carrying g.recvFrameSize j rate format (x.asked rate) (x.log.map (·.2)) [] _ :=
    ⟨hlogged, (List.append_nil _).symm, hformat, hidle.isOpen, [], (List.append_nil _).symm, hsamples, hrate,
      hidle.overflow, hidle.carries rfl⟩
  obtain ⟨hu₁, hu₂⟩ := Station.undisturbed_append.1 hu
  -- the commands are taken, then the clock passes the last tick
  obtain ⟨ps₁, k₁, hx₁, -⟩ := hx.run hu₁ (hasked ▸ List.prefix_rfl)
  have hall' := hall
  rw [show y = (x.run as).run bs from x.run_append as bs] at hall'
  obtain ⟨ps, k, hy, hk⟩ := hx₁.run hu₂ (hall' ▸ List.prefix_rfl)
  rw [← x.run_append as bs] at hy
  obtain ⟨asked₁, -, hc₁⟩ := hx₁.chain
  obtain ⟨asked, -, hc⟩ := hy.chain
  have hzero : k = 0 := by
    have hle := hk hasked hpast
    have hle₁ : k₁ ≤ 4 * (sizes most (ns ++ [m])).length + 5 := hc₁.carries.le
    omega
  subst hzero
  obtain ⟨hburst, hcommands, rfl⟩ := hc.carries.finished
  have hbound : tick + (ns ++ [m]).sum < 2 ^ 64 := by
    obtain ⟨now, hnow⟩ := List.exists_mem_of_length_pos (show 0 < (readings bs).length by omega)
    exact (hpast now hnow).trans_lt (hu₂.exact now hnow).bounded
  refine ⟨_, hy.log, delivered_burstPackets hmost hbound _, hburst, hcommands, hc.calm, ?_, hy.isOpen⟩
  exact hc.carries.ready.2 hburst

/-- Three counts, of which the second is zero; the second and the third command come in
while the first is carried out. -/
theorem chained_commands_delivered_zero :
    let post (mode : StreamMode) (n : UInt64) : StationAction :=
      .post ((StreamCommand.now mode n : StreamCommand).encode 1 (List.replicate 28 0)).frame
    let steps (n tick : Nat) : List StationAction := List.replicate n (.chain (.at tick))
    let as := post .samplesAndMore 3 :: steps 4 1 ++ [post .samplesAndMore 0, post .samplesAndDone 2] ++ steps 3 4
    let bs := steps 21 7
    let g : Geometry := { recvFrameSize := 24, sendFrameSize := 28, recvFrames := 4, sendFrames := 2 }
    let chain := [3, 0].map (StreamMode.samplesAndMore, ·) ++ [(.samplesAndDone, 2)]
    ∃ l, Link.new g = .ok l ∧ Header.size + 2 * WireFormat.sampleBytes .sc16 ≤ g.recvFrameSize ∧
      let x := (Station.fresh .sc16 1 2 l).run []
      let y := x.run (as ++ bs)
      x.Idle ∧ x.Undisturbed 2 (as ++ bs) ∧ (x.run as).asked 1 = x.asked 1 ++ chain ∧
      y.asked 1 = x.asked 1 ++ chain ∧ (∀ now ∈ readings bs, 2 + [3, 0, 2].sum ≤ now.tick) ∧
      4 * (sizes 2 [3, 0, 2]).length + 5 ≤ (readings bs).length ∧
      ∃ ps, y.log.map (·.2) = x.log.map (·.2) ++ ps.map (fun p => DataPacket.bytes .sc16 p.header p.samples) ∧
        Delivered 2 2 [3, 0, 2] ps ∧ y.Idle := by
  intro post steps as bs g chain
  have hroom : Header.size + 2 * WireFormat.sampleBytes .sc16 ≤ g.recvFrameSize := by decide
  have hclock : Ticking (as ++ bs) :=
    .of_ticks (List.replicate 4 1 ++ List.replicate 3 4 ++ List.replicate 21 7) rfl (by decide) (by decide)
  have hopen : ∀ a ∈ as ++ bs, a ≠ .close := by simp [as, bs, post, steps]
  have hl : ∃ l, Link.new g = .ok l := ⟨_, rfl⟩
  obtain ⟨l, hl⟩ := hl
  have hidle : ((Station.fresh .sc16 1 2 l).run []).Idle := by
    cases hl
    exact ⟨rfl, rfl, rfl, by decide, rfl⟩
  have hsmooth : ∀ y ∈ ((Station.fresh .sc16 1 2 l).run []).moments (as ++ bs),
      Smooth 2 y.2 y.1.chain y.1.link := by
    cases hl
    decide +kernel
  have hasked : (((Station.fresh .sc16 1 2 l).run []).run as).asked 1 =
      ((Station.fresh .sc16 1 2 l).run []).asked 1 ++ chain := by
    cases hl
    decide +kernel
  have hall : (((Station.fresh .sc16 1 2 l).run []).run (as ++ bs)).asked 1 =
      ((Station.fresh .sc16 1 2 l).run []).asked 1 ++ chain := by
    cases hl
    decide +kernel
  have hu : ((Station.fresh .sc16 1 2 l).run []).Undisturbed 2 (as ++ bs) := ⟨hclock.exact, hopen, hsmooth⟩
  have hpast : ∀ now ∈ readings bs, 2 + [3, 0, 2].sum ≤ now.tick := by decide
  have hsteps : 4 * (sizes 2 [3, 0, 2]).length + 5 ≤ (readings bs).length := by decide
  exact ⟨l, hl, hroom, hidle, hu, hasked, hall, hpast, hsteps,
    chained_commands_delivered hl .sc16 1 (by decide) hroom [] ⟨3, rfl, by decide⟩ hidle hu hasked hall hpast hsteps⟩

end RadioStream.Sim
