import RadioStream.Proofs.Link
import RadioStream.Proofs.Sim.Moves
/-!
# Runs of a station

`Station.Logged` says what the log of a station holds. A step of the chain is a move
that adds to it what the chain sent; nothing that the host does changes the chain or the
log. So an invariant of the moves holds after every run (`Station.run_keeps`).
-/

namespace RadioStream.Sim

open ReceiveChain

/-- What the clock shows at an action, if it is a step of the chain. -/
def StationAction.reading? : StationAction → Option Reading
  | .chain now => some now
  | .post _ | .take | .release _ | .close => none

theorem readings_cons (a : StationAction) (as : List StationAction) :
    readings (a :: as) = a.reading?.toList ++ readings as := by
  cases a <;> rfl

/-! ## What moves leave as it is -/

namespace ReceiveChain

theorem handle_keeps (c : ReceiveChain) (command : StreamCommand) :
    (c.handle command).format = c.format ∧ (c.handle command).rate = c.rate ∧
      (c.handle command).packetSamples = c.packetSamples ∧ (c.handle command).sequence = c.sequence ∧
      (c.handle command).overflow = c.overflow := by
  unfold handle
  split
  · dsimp only
    split <;> exact ⟨rfl, rfl, rfl, rfl, rfl⟩
  · split <;> exact ⟨rfl, rfl, rfl, rfl, rfl⟩

theorem start_keeps (c : ReceiveChain) (command : StreamCommand) (tick : Nat) :
    (c.start command tick).format = c.format ∧ (c.start command tick).rate = c.rate ∧
      (c.start command tick).packetSamples = c.packetSamples ∧ (c.start command tick).sequence = c.sequence ∧
      (c.start command tick).overflow = c.overflow := by
  unfold start
  split <;> exact ⟨rfl, rfl, rfl, rfl, rfl⟩

theorem overflowed_keeps (c : ReceiveChain) (b : Burst) (n : Nat) :
    (c.overflowed b n).format = c.format ∧ (c.overflowed b n).rate = c.rate ∧
      (c.overflowed b n).packetSamples = c.packetSamples ∧ (c.overflowed b n).sequence = c.sequence := by
  unfold overflowed
  dsimp only
  split <;> exact ⟨rfl, rfl, rfl, rfl⟩

theorem advanced_keeps (c : ReceiveChain) (b : Burst) (n : Nat) :
    (c.advanced b n).format = c.format ∧ (c.advanced b n).rate = c.rate ∧
      (c.advanced b n).packetSamples = c.packetSamples ∧ (c.advanced b n).overflow = c.overflow ∧
      (c.advanced b n).sequence = c.sequence + 1 := by
  unfold advanced
  dsimp only
  split
  · exact ⟨rfl, rfl, rfl, rfl, rfl⟩
  · split
    · split <;> exact ⟨rfl, rfl, rfl, rfl, rfl⟩
    · exact ⟨rfl, rfl, rfl, rfl, rfl⟩

/-- Only a stop of a burst makes the chain send the end of it. -/
theorem phase_handle (c : ReceiveChain) (command : StreamCommand) :
    (c.handle command).phase = .listen ∨
      command.mode = .stopContinuous ∧ ∃ b, c.burst = some b ∧ (c.handle command).phase = .finish b.nextTick := by
  unfold handle
  split
  · next hm =>
    dsimp only
    cases hb : c.burst with
    | none => exact .inl rfl
    | some b => exact .inr ⟨hm, b, rfl, rfl⟩
  · split <;> exact .inl rfl

/-- After a packet the chain looks for commands, or has a broken chain to report. -/
theorem phase_advanced (c : ReceiveChain) (b : Burst) (n : Nat) :
    (c.advanced b n).phase = .listen ∨ ∃ tick, (c.advanced b n).phase = .breakOff tick := by
  unfold advanced
  dsimp only
  split
  · exact .inl rfl
  · split
    · split
      · exact .inl rfl
      · exact .inr ⟨_, rfl⟩
    · exact .inl rfl

/-- A move changes neither the format nor the rate nor the size of packets. -/
theorem Move.fixed {now : Reading} {c c' : ReceiveChain} {l : Link} {heard : List Bytes} {said : List Emission}
    (h : Move now c l heard said c') :
    c'.format = c.format ∧ c'.rate = c.rate ∧ c'.packetSamples = c.packetSamples := by
  cases h with
  | @heard _ command =>
    obtain ⟨hf, hr, hn, -⟩ := c.handle_keeps command
    exact ⟨hf, hr, hn⟩
  | @begin command commands tick =>
    obtain ⟨hf, hr, hn, -⟩ := start_keeps { c with commands } command tick
    exact ⟨hf, hr, hn⟩
  | @missed b =>
    obtain ⟨hf, hr, hn, -⟩ := c.overflowed_keeps b (b.count c.packetSamples)
    exact ⟨hf, hr, hn⟩
  | @sent b =>
    obtain ⟨hf, hr, hn, -⟩ := c.advanced_keeps b (b.count c.packetSamples)
    exact ⟨hf, hr, hn⟩
  | _ => exact ⟨rfl, rfl, rfl⟩

/-- A chain that has ended makes no more moves. -/
theorem Move.eq_of_stopped {now : Reading} {c c' : ReceiveChain} {l : Link} {heard : List Bytes} {said : List Emission}
    (h : Move now c l heard said c') (hp : c.phase = .stopped) : c' = c ∧ heard = [] ∧ said = [] := by
  cases h with
  | stopped => exact ⟨rfl, rfl, rfl⟩
  | _ => simp_all

/-- Where only a chain that has ended gave up its link, that stays so. -/
theorem Move.isOpen {now : Reading} {room : Nat} {away : List Frame} {format : WireFormat} {c c' : ReceiveChain}
    {l l' : Link} {heard : List Bytes} {said : List Emission} (h : Move now c l heard said c')
    (hx : Exchange room away format c' l heard said l') (ho : l.closed = true → c.phase = .stopped)
    (hc : l'.closed = true) : c'.phase = .stopped := by
  rcases hx.closed hc with hl | hp
  · rw [(h.eq_of_stopped (ho hl)).1]
    exact ho hl
  · exact hp

end ReceiveChain

namespace Station

/-- The log of a station holds some emissions, and its frames are all there. -/
structure Logged (room : Nat) (x : Station) (es : List (Nat × Emission)) : Prop where
  stocked : x.link.toHost.Stocked room 0 x.kept
  roomy : Header.size + x.chain.packetSamples * x.chain.format.sampleBytes ≤ room
  log : x.log = es.map fun e => (e.1, e.2.bytes x.chain.format)

section Steps

variable {room : Nat} {x : Station} {es : List (Nat × Emission)}

/-- A step of the chain. -/
theorem Logged.tick (h : x.Logged room es) (now : Reading) :
    ∃ heard said, Move now x.chain x.link heard said (x.tick now).chain ∧
      (x.tick now).heard = x.heard ++ heard ∧ (x.tick now).Logged room (es ++ said.map (now.tick, ·)) ∧
      ((x.tick now).link.closed = true → x.link.closed = true ∨ (x.tick now).chain.phase = .stopped) := by
  obtain ⟨heard, said, hm, hx⟩ := step_moves now h.stocked h.roomy
  obtain ⟨hformat, -, hsamples⟩ := hm.fixed
  refine ⟨heard, said, hm, ?_, ⟨hx.stocked, ?_, ?_⟩, hx.closed⟩
  · have hl : x.link.toDevice.pending.length - (x.chain.step now x.link).2.toDevice.pending.length = heard.length := by
      rw [hx.heard, List.length_append]
      omega
    have ht : x.link.toDevice.pending.take heard.length = heard := by rw [hx.heard, List.take_left]
    simp only [Station.tick, hl, ht]
  · have hr := h.roomy
    rw [← hformat, ← hsamples] at hr
    exact hr
  · have hd : (x.chain.step now x.link).2.toHost.pending.drop x.link.toHost.pending.length =
        said.map (Emission.bytes x.chain.format) := by
      rw [hx.said, List.drop_left]
    simp only [Station.tick, hd, h.log, hformat, List.map_append, List.map_map]
    rfl

/-- What a step adds to the log. -/
theorem Logged.log_tick (h : x.Logged room es) {y : Station} {said : List Emission} {tick : Nat}
    (hy : y.Logged room (es ++ said.map (tick, ·))) (hf : y.chain.format = x.chain.format) :
    y.log = x.log ++ said.map fun e => (tick, e.bytes x.chain.format) := by
  rw [hy.log, h.log, hf, List.map_append, List.map_map]
  rfl

theorem sendBytes_host (bs : Bytes) (l : Link) :
    ∃ lane, ((Terminal.ofEnd .host).sendBytes 0 bs l).2 = { l with toDevice := lane } := by
  unfold Terminal.sendBytes Terminal.send
  have ha : (Terminal.ofEnd .host).acquire 0 l =
      (l.toDevice.acquire.1, { l with toDevice := l.toDevice.acquire.2 }) := rfl
  rw [ha]
  cases l.toDevice.acquire.1 with
  | none => exact ⟨_, rfl⟩
  | some f => exact ⟨_, rfl⟩

/-- What the host does leaves the chain and the log alone. -/
theorem Logged.host (h : x.Logged room es) {a : StationAction} (ha : a.reading? = none) :
    (x.step a).chain = x.chain ∧ (x.step a).heard = x.heard ∧ (x.step a).Logged room es ∧
      (a ≠ .close → (x.step a).link.closed = x.link.closed) := by
  cases a with
  | chain => cases ha
  | post bs =>
    obtain ⟨lane, hl⟩ := sendBytes_host bs x.link
    have hx : x.step (.post bs) = { x with link := { x.link with toDevice := lane } } := by rw [Station.step, hl]
    rw [hx]
    exact ⟨rfl, rfl, ⟨h.stocked, h.roomy, h.log⟩, fun _ => rfl⟩
  | take =>
    have hr : x.link.receive .host = (x.link.toHost.receive.1, { x.link with toHost := x.link.toHost.receive.2 }) := rfl
    rw [Station.step, hr]
    rcases hl : x.link.toHost.receive with ⟨_ | f, lane⟩
    · obtain ⟨-, rfl⟩ := Lane.receive_none hl
      exact ⟨rfl, rfl, ⟨h.stocked, h.roomy, h.log⟩, fun _ => rfl⟩
    · exact ⟨rfl, rfl, ⟨h.stocked.receive hl, h.roomy, h.log⟩, fun _ => rfl⟩
  | release i =>
    rw [Station.step]
    cases hi : x.kept[i]? with
    | none => exact ⟨rfl, rfl, h, fun _ => rfl⟩
    | some f =>
      obtain ⟨hlt, rfl⟩ := List.getElem?_eq_some_iff.1 hi
      have hk : x.kept = x.kept.take i ++ x.kept[i] :: x.kept.drop (i + 1) := by
        rw [← List.drop_eq_getElem_cons hlt, List.take_append_drop]
      have hst := h.stocked
      rw [hk] at hst
      obtain ⟨hf, hst'⟩ := hst.give
      rw [← List.eraseIdx_eq_take_drop_succ] at hst'
      exact ⟨rfl, rfl, ⟨hst'.recycle hf, h.roomy, h.log⟩, fun _ => rfl⟩
  | close => exact ⟨rfl, rfl, ⟨h.stocked, h.roomy, h.log⟩, fun hc => absurd rfl hc⟩

/-- A station whose link is new. -/
theorem Logged.of_new {g : Geometry} {l : Link} (hl : Link.new g = .ok l) (format : WireFormat) (rate : Float)
    {most : Nat} (hroom : Header.size + most * format.sampleBytes ≤ g.recvFrameSize) :
    (fresh format rate most l).Logged g.recvFrameSize [] ∧ l.closed = false := by
  have hh := Link.lane_of_new hl .host
  exact ⟨⟨.of_new hh (Lane.frameSize_of_new hh).ge, hroom, rfl⟩, Link.isOpen_of_new hl⟩

end Steps

/-! ## Runs -/

/-- The steps of the chain in a run, with the station before each. -/
def moments (x : Station) : List StationAction → List (Station × Reading)
  | [] => []
  | a :: as => a.reading?.toList.map (x, ·) ++ (x.step a).moments as

theorem moments_append (x : Station) (as bs : List StationAction) :
    x.moments (as ++ bs) = x.moments as ++ (x.run as).moments bs := by
  induction as generalizing x with
  | nil => rfl
  | cons a as ih =>
    rw [List.cons_append, moments, ih, moments, List.append_assoc]
    rfl

theorem map_moments (x : Station) (as : List StationAction) : (x.moments as).map (·.2) = readings as := by
  induction as generalizing x with
  | nil => rfl
  | cons a as ih =>
    rw [moments, readings_cons, List.map_append, ih, List.map_map]
    congr 1
    exact List.map_id _

theorem Logged.step {room : Nat} {x : Station} {es : List (Nat × Emission)} (h : x.Logged room es)
    (a : StationAction) :
    (∃ es', (x.step a).Logged room es') ∧ (x.step a).chain.format = x.chain.format ∧
      (x.step a).chain.rate = x.chain.rate ∧ (x.step a).chain.packetSamples = x.chain.packetSamples := by
  cases ha : a.reading? with
  | none =>
    obtain ⟨hc, -, hl, -⟩ := h.host ha
    rw [hc]
    exact ⟨⟨es, hl⟩, rfl, rfl, rfl⟩
  | some now =>
    cases a with
    | chain now' =>
      obtain ⟨heard, said, hm, -, hl, -⟩ := h.tick now'
      exact ⟨⟨_, hl⟩, hm.fixed⟩
    | post | take | release | close => cases ha

/-- Whatever happens, the log holds what the chain sent. -/
theorem Logged.run {room : Nat} {x : Station} {es : List (Nat × Emission)} (h : x.Logged room es)
    (as : List StationAction) :
    (∃ es', (x.run as).Logged room es') ∧ (x.run as).chain.format = x.chain.format ∧
      (x.run as).chain.rate = x.chain.rate ∧ (x.run as).chain.packetSamples = x.chain.packetSamples := by
  induction as generalizing x es with
  | nil => exact ⟨⟨es, h⟩, rfl, rfl, rfl⟩
  | cons a as ih =>
    obtain ⟨⟨es', hl⟩, hf, hr, hn⟩ := h.step a
    obtain ⟨hl', hf', hr', hn'⟩ := ih hl
    exact ⟨hl', hf'.trans hf, hr'.trans hr, hn'.trans hn⟩

/-- What every move keeps at a clock that never goes back, every run keeps. -/
theorem run_keeps {room : Nat} {I : Nat → ReceiveChain → List (Nat × Emission) → Prop} {x : Station}
    {as : List StationAction}
    (hI : ∀ {past y now heard said c' es}, (y, now) ∈ x.moments as → now.Exact → past ≤ now.tick →
      Move now y.chain y.link heard said c' → I past y.chain es → I now.tick c' (es ++ said.map (now.tick, ·)))
    {es : List (Nat × Emission)} {past : Nat} (h : x.Logged room es) (hi : I past x.chain es) (hclock : Ticking as)
    (hpast : ∀ now ∈ readings as, past ≤ now.tick) :
    ∃ past' es', (x.run as).Logged room es' ∧ I past' (x.run as).chain es' := by
  induction as generalizing x es past with
  | nil => exact ⟨past, es, h, hi⟩
  | cons a as ih =>
    have hexact := hclock.exact
    have hmono := hclock.monotone
    have hlater : ∀ {past y now heard said c' es}, (y, now) ∈ (x.step a).moments as → now.Exact → past ≤ now.tick →
        Move now y.chain y.link heard said c' → I past y.chain es → I now.tick c' (es ++ said.map (now.tick, ·)) :=
      fun hy => hI (List.mem_append_right _ hy)
    rw [readings_cons] at hexact hmono hpast
    cases ha : a.reading? with
    | none =>
      obtain ⟨hc, -, hl, -⟩ := h.host ha
      rw [ha] at hexact hmono hpast
      exact ih hlater hl (hc ▸ hi) ⟨hexact, hmono⟩ hpast
    | some now =>
      cases a with
      | chain now' =>
        cases ha
        obtain ⟨heard, said, hm, -, hl, -⟩ := h.tick now
        simp only [StationAction.reading?, Option.toList_some, List.singleton_append, List.forall_mem_cons,
          List.pairwise_cons] at hexact hmono hpast
        have hnow : (x, now) ∈ x.moments (.chain now :: as) := List.mem_cons_self
        exact ih hlater hl (hI hnow hexact.1 hpast.1 hm hi) ⟨hexact.2, hmono.2⟩ hmono.1
      | post | take | release | close => cases ha

end Station

end RadioStream.Sim
