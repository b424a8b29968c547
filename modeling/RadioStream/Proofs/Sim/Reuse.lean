import RadioStream.Proofs.Reuse
import RadioStream.Sim.Machine
/-!
# A device whose frames are used again

The chains of a simulated device send samples, ends of bursts, conditions and events in frames
that come home with their old contents. On links that are alike a chain does the same in every
step, and so does the whole machine while time passes: who has a turn next depends on how many
frames there are, and never on what an idle one holds.
-/

namespace RadioStream.Sim

/-! ## The receive chain -/

namespace ReceiveChain

variable {l l' : Link}

theorem stop_alike (h : l.Alike l') (c : ReceiveChain) : SameResult Link.Alike (c.stop l) (c.stop l') :=
  ⟨rfl, h.close⟩

theorem send_alike (h : l.Alike l') {write : Bytes → Written} (hw : Blind write) :
    SameResult Link.Alike (send write l) (send write l') :=
  (Terminal.respects_ofEnd .device).send hw 0 h

theorem sendStatus_alike (h : l.Alike l') (code : RxCode) (tick : Nat) :
    SameResult Link.Alike (sendStatus code tick l) (sendStatus code tick l') := by
  have hw : Blind (code.encode (some (UInt64.ofNat tick))) := Header.encodePacket_blind _ _
  obtain ⟨hr, hl⟩ := send_alike h hw
  exact ⟨by simp only [sendStatus, hr], hl⟩

theorem listen_alike (h : l.Alike l') (c : ReceiveChain) : SameResult Link.Alike (c.listen l) (c.listen l') := by
  unfold listen
  rw [← h.closed]
  split
  · exact stop_alike h c
  · match (Terminal.ofEnd .device).take 0 l, (Terminal.ofEnd .device).take 0 l',
      (Terminal.respects_ofEnd .device).take 0 h with
    | (frame, _), (frame', _), ⟨hf, hl⟩ =>
      obtain rfl : frame = frame' := hf
      dsimp only
      split <;> exact ⟨rfl, hl⟩

theorem reportOverflow_alike (h : l.Alike l') (c : ReceiveChain) :
    SameResult Link.Alike (c.reportOverflow l) (c.reportOverflow l') := by
  unfold reportOverflow
  cases c.overflow with
  | none => exact ⟨rfl, h⟩
  | some tick =>
    dsimp only
    match sendStatus .overflow tick l, sendStatus .overflow tick l', sendStatus_alike h .overflow tick with
    | (sent, _), (sent', _), ⟨hs, hl⟩ =>
      obtain rfl : sent = sent' := hs
      cases sent <;> exact ⟨rfl, hl⟩

theorem beginBurst_alike (h : l.Alike l') (now : Reading) (c : ReceiveChain) :
    SameResult Link.Alike (c.beginBurst now l) (c.beginBurst now l') := by
  unfold beginBurst
  split
  · exact ⟨rfl, h⟩
  · split
    · exact ⟨rfl, h⟩
    · dsimp only
      split
      · exact stop_alike h _
      · split
        · exact ⟨rfl, h⟩
        · exact ⟨rfl, (sendStatus_alike h .lateCommand now.tick).rest⟩

theorem produce_alike (h : l.Alike l') (now : Reading) (c : ReceiveChain) :
    SameResult Link.Alike (c.produce now l) (c.produce now l') := by
  unfold produce
  cases c.burst with
  | none => exact ⟨rfl, h⟩
  | some b =>
    dsimp only
    match now.left? (b.nextTick + b.count c.packetSamples) with
    | none => exact stop_alike h c
    | some (time + 1) => exact ⟨rfl, h⟩
    | some 0 =>
      dsimp only
      match send _ l, send _ l', send_alike h (Header.encodeSamples_blind
        (b.header (b.count c.packetSamples) c.sequence) c.format (b.samples (b.count c.packetSamples))) with
      | (result, _), (result', _), ⟨hr, hl⟩ =>
        obtain rfl : result = result' := hr
        match result with
        | none => exact ⟨rfl, hl⟩
        | some (.ok _) => exact ⟨rfl, hl⟩
        | some (.error _) => exact stop_alike hl c

theorem finish_alike (h : l.Alike l') (c : ReceiveChain) (tick : Nat) :
    SameResult Link.Alike (c.finish tick l) (c.finish tick l') := by
  unfold finish
  dsimp only
  match send _ l, send _ l', send_alike h (Header.encodePacket_blind
    (Header.stamped { endOfBurst := true, sequence := c.sequence } (some (UInt64.ofNat tick))) []) with
  | (result, _), (result', _), ⟨hr, hl⟩ =>
    obtain rfl : result = result' := hr
    match result with
    | some (.ok _) => exact ⟨rfl, hl⟩
    | some (.error _) => exact ⟨rfl, hl⟩
    | none =>
      dsimp only
      rw [← hl.closed]
      split
      · exact stop_alike hl c
      · exact ⟨rfl, hl⟩

theorem step_alike (h : l.Alike l') (now : Reading) (c : ReceiveChain) :
    SameResult Link.Alike (c.step now l) (c.step now l') := by
  unfold step
  cases c.phase with
  | listen => exact listen_alike h c
  | report => exact reportOverflow_alike h c
  | begin => exact beginBurst_alike h now c
  | produce => exact produce_alike h now c
  | finish tick => exact finish_alike h c tick
  | breakOff tick => exact ⟨rfl, (sendStatus_alike h .brokenChain tick).rest⟩
  | rest time => exact ⟨rfl, h⟩
  | stopped => exact ⟨rfl, h⟩

end ReceiveChain

/-! ## The transmit chain -/

namespace TransmitChain

variable {l l' : Link}

theorem send_alike (h : l.Alike l') (c : TransmitChain) (a : Alarm) : (c.send a l).Alike (c.send a l') :=
  ((Terminal.respects_ofEnd .device).send (Header.encodePacket_blind _ _) 0 h).rest

theorem attend_alike (h : l.Alike l') (now : Reading) (c : TransmitChain) :
    SameResult Link.Alike (c.attend now l) (c.attend now l') := by
  unfold attend
  rw [← h.closed]
  split
  · exact ⟨rfl, h⟩
  · split <;> exact ⟨rfl, h⟩

theorem listen_alike (h : l.Alike l') (now : Reading) (c : TransmitChain) :
    SameResult Link.Alike (c.listen now l) (c.listen now l') := by
  unfold listen
  dsimp only
  match (Terminal.ofEnd .device).take 0 l, (Terminal.ofEnd .device).take 0 l',
    (Terminal.respects_ofEnd .device).take 0 h with
  | (frame, _), (frame', _), ⟨hf, hl⟩ =>
    obtain rfl : frame = frame' := hf
    cases frame with
    | none => dsimp only; split <;> exact ⟨rfl, hl⟩
    | some frame => dsimp only; split <;> exact ⟨rfl, hl⟩

theorem hold_alike (h : l.Alike l') (now : Reading) (c : TransmitChain) (hd : Header) (length : Nat) :
    SameResult Link.Alike (c.hold now hd length l) (c.hold now hd length l') := by
  unfold hold
  match now.left? hd.timestamp.toNat with
  | none => exact ⟨rfl, h.close⟩
  | some 0 => exact ⟨rfl, h⟩
  | some (time + 1) => exact ⟨rfl, h⟩

theorem step_alike (h : l.Alike l') (now : Reading) (c : TransmitChain) :
    SameResult Link.Alike (c.step now l) (c.step now l') := by
  unfold step
  cases c.alarm with
  | some a => exact ⟨rfl, send_alike h c a⟩
  | none =>
    dsimp only
    cases c.phase with
    | attend => exact attend_alike h now c
    | listen => exact listen_alike h now c
    | judge hd length => exact ⟨rfl, h⟩
    | hold hd length time => exact hold_alike h now c hd length
    | play hd length => exact ⟨rfl, h⟩
    | finish hd => exact ⟨rfl, h⟩
    | stopped => exact ⟨rfl, h⟩

end TransmitChain

theorem Chain.step_alike {l l' : Link} (h : l.Alike l') (now : Reading) (c : Chain) :
    SameResult Link.Alike (c.step now l) (c.step now l') := by
  cases c with
  | receive c => exact ⟨congrArg Chain.receive (c.step_alike h now).result, (c.step_alike h now).rest⟩
  | transmit c => exact ⟨congrArg Chain.transmit (c.step_alike h now).result, (c.step_alike h now).rest⟩

/-! ## The machine -/

/-- Circuits whose links are alike. -/
structure Circuit.Alike (c c' : Circuit) : Prop where
  link : c.link.Alike c'.link
  chain : c.chain = c'.chain
  since : c.since = c'.since

/-- Machines that differ only in what is left in their frames. -/
structure Machine.Alike (m m' : Machine) : Prop where
  rate : m.rate = m'.rate
  now : m.now = m'.now
  circuits : List.Forall₂ Circuit.Alike m.circuits m'.circuits
  listeners : m.listeners = m'.listeners

theorem Circuit.Alike.step {c c' : Circuit} (h : c.Alike c') (now : Reading) : (c.step now).Alike (c'.step now) := by
  obtain ⟨hc, hl⟩ := c.chain.step_alike h.link now
  unfold Circuit.step
  rw [← h.chain]
  exact ⟨hl, hc, rfl⟩

theorem Circuit.Alike.due? {c c' : Circuit} (h : c.Alike c') : c.due? = c'.due? := by
  unfold Circuit.due?
  rw [h.chain, h.since, h.link.pending, h.link.available]

namespace Machine

variable {m m' : Machine}

theorem Alike.link? (h : m.Alike m') (i : Nat) : Option.Rel Link.Alike (m.link? i) (m'.link? i) := by
  have hc := forall₂_getElem? h.circuits i
  unfold Machine.link?
  generalize m.circuits[i]? = x, m'.circuits[i]? = x' at hc ⊢
  cases hc with
  | none => exact .none
  | some hc => exact .some hc.link

theorem Alike.withLink (h : m.Alike m') (i : Nat) {l l' : Link} (hl : l.Alike l') :
    (m.withLink i l).Alike (m'.withLink i l') :=
  { h with circuits := forall₂_modify h.circuits i fun _ _ hc => { hc with link := hl } }

theorem Alike.hasFrame (h : m.Alike m') (i : Nat) : m.hasFrame i = m'.hasFrame i := by
  have hl := h.link? i
  unfold Machine.hasFrame
  generalize m.link? i = x, m'.link? i = x' at hl ⊢
  cases hl with
  | none => rfl
  | some hl => exact congrArg (fun n => decide (0 < n)) (hl.pending .host)

theorem Alike.hasRoom (h : m.Alike m') (i : Nat) : m.hasRoom i = m'.hasRoom i := by
  have hl := h.link? i
  unfold Machine.hasRoom
  generalize m.link? i = x, m'.link? i = x' at hl ⊢
  cases hl with
  | none => rfl
  | some hl => exact congrArg (fun n => decide (0 < n)) (hl.available .host)

theorem Alike.agenda (h : m.Alike m') : m.agenda = m'.agenda := by
  have hc : (m.circuits.mapIdx fun i c => c.due?.map (·, Party.circuit i)) =
      m'.circuits.mapIdx fun i c => c.due?.map (·, Party.circuit i) := by
    refine List.ext_getElem? fun i => ?_
    rw [List.getElem?_mapIdx, List.getElem?_mapIdx]
    have hc := forall₂_getElem? h.circuits i
    generalize m.circuits[i]? = x, m'.circuits[i]? = x' at hc ⊢
    cases hc with
    | none => rfl
    | some hc => simp only [Option.map_some, hc.due?]
  have hl : m.listenerDue? = m'.listenerDue? := by
    funext l
    simp only [listenerDue?, h.hasFrame]
  unfold Machine.agenda
  rw [hc, hl, h.listeners]

theorem respects_still (i : Nat) : (still i).Respects Alike where
  receive wait m m' h := by
    have hl := h.link? i
    simp only [still]
    generalize m.link? i = x, m'.link? i = x' at hl ⊢
    cases hl with
    | none => exact ⟨.none, h⟩
    | some hl =>
      obtain ⟨hf, hl⟩ := (Terminal.respects_ofEnd .host).receive wait hl
      exact ⟨hf, h.withLink i hl⟩
  recycle {f f' m m'} hf h := by
    have hl := h.link? i
    simp only [still]
    generalize m.link? i = x, m'.link? i = x' at hl ⊢
    cases hl with
    | none => exact h
    | some hl => exact h.withLink i ((Terminal.respects_ofEnd .host).recycle hf hl)
  acquire wait m m' h := by
    have hl := h.link? i
    simp only [still]
    generalize m.link? i = x, m'.link? i = x' at hl ⊢
    cases hl with
    | none => exact ⟨.none, h⟩
    | some hl =>
      obtain ⟨hf, hl⟩ := (Terminal.respects_ofEnd .host).acquire wait hl
      exact ⟨hf, h.withLink i hl⟩
  submit {f f' m m'} hf h := by
    have hl := h.link? i
    simp only [still]
    generalize m.link? i = x, m'.link? i = x' at hl ⊢
    cases hl with
    | none => exact h
    | some hl => exact h.withLink i ((Terminal.respects_ofEnd .host).submit hf hl)

theorem Alike.visit (h : m.Alike m') (i : Nat) (l : Listener) : (m.visit i l).Alike (m'.visit i l) := by
  unfold Machine.visit
  cases visited? l with
  | none => exact h
  | some circuit =>
    obtain ⟨hf, hm⟩ := (respects_still circuit).take 0 h
    simp only [EventReader.visit_eq, hf]
    exact { hm with listeners := by rw [hm.listeners, hm.now] }

theorem Alike.turn (h : m.Alike m') (p : Party) : (m.turn p).Alike (m'.turn p) := by
  cases p with
  | circuit i =>
    refine { h with circuits := ?_ }
    simp only [Machine.turn, h.rate, h.now]
    exact forall₂_modify h.circuits i fun _ _ hc => hc.step _
  | listener i =>
    unfold Machine.turn
    rw [← h.listeners]
    dsimp only
    split
    · exact h.visit i _
    · exact h

/-- What is waited for shows in both machines at the same moment, so the same turns are taken. -/
theorem Alike.advance (h : m.Alike m') (deadline : Nat) {done : Machine → Bool}
    (hd : ∀ {m m' : Machine}, m.Alike m' → done m = done m') (fuel : Nat) :
    (m.advance deadline done fuel).Alike (m'.advance deadline done fuel) := by
  induction fuel generalizing m m' with
  | zero => exact h
  | succ fuel ih =>
    unfold Machine.advance
    rw [← hd h, ← h.agenda, ← h.now]
    split
    · exact h
    · split
      · next due party hdue =>
        have hturn : Alike { m with now := max m.now due } { m' with now := max m.now due } := { h with now := rfl }
        split
        · exact ih (hturn.turn party)
        · exact { h with now := rfl }
      · exact { h with now := rfl }

theorem Alike.await (h : m.Alike m') (time : Nat) {done : Machine → Bool}
    (hd : ∀ {m m' : Machine}, m.Alike m' → done m = done m') : (m.await time done).Alike (m'.await time done) := by
  unfold Machine.await
  split
  · exact h
  · rw [← h.circuits.length_eq, ← h.listeners, ← h.now]
    exact h.advance _ hd _

/-- The host end of a circuit, while the device works. -/
theorem respects_terminal (i : Nat) : (terminal i).Respects Alike where
  receive wait m m' h := by
    have hclosed : (m.link? i).all (·.closed) = (m'.link? i).all (·.closed) := by
      have hl := h.link? i
      generalize m.link? i = x, m'.link? i = x' at hl ⊢
      cases hl with
      | none => rfl
      | some hl => exact hl.closed
    simp only [terminal, ← hclosed]
    split
    · exact (respects_still i).receive 0 h
    · exact (respects_still i).receive 0 (h.await wait fun h => h.hasFrame i)
  recycle := (respects_still i).recycle
  acquire wait m m' h := (respects_still i).acquire 0 (h.await wait fun h => h.hasRoom i)
  submit := (respects_still i).submit

theorem Alike.sleep (h : m.Alike m') (time : Nat) : (m.sleep time).Alike (m'.sleep time) := h.await time fun _ => rfl

theorem Alike.takeEvent (h : m.Alike m') (i time : Nat) :
    SameResult Alike (m.takeEvent i time) (m'.takeEvent i time) := by
  have hd {m m' : Machine} (h : m.Alike m') : hasEvent i m = hasEvent i m' := by
    unfold hasEvent
    rw [h.listeners]
  have hm := h.await time hd
  unfold Machine.takeEvent
  dsimp only
  rw [← hm.listeners]
  cases (m.await time (hasEvent i)).listeners[i]? with
  | none => exact ⟨rfl, hm⟩
  | some l => exact ⟨rfl, { hm with listeners := rfl }⟩

end Machine

/-- What is left in a frame from before is never seen. On links that differ only in that, a
transmitter and a receiver of the host and both chains of the device do the same and send the same
bytes, and whoever reads at either end of a link gets the same. So it is in a whole simulated
device, while the host waits and the chains go on. -/
theorem stale_unseen :
    Unaware (List.Forall₂ Link.Alike) Terminal.host ∧
      (∀ {l l' : Link}, l.Alike l' → ∀ now,
        (∀ c : ReceiveChain, SameResult Link.Alike (c.step now l) (c.step now l')) ∧
          ∀ c : TransmitChain, SameResult Link.Alike (c.step now l) (c.step now l')) ∧
      (∀ {l l' : Link}, l.Alike l' → ∀ e, (l.inbound e).pending = (l'.inbound e).pending ∧
        ∀ wait, SameResult Link.Alike ((Terminal.ofEnd e).take wait l) ((Terminal.ofEnd e).take wait l')) ∧
      (∀ circuits, Unaware Machine.Alike (Machine.terminals circuits)) ∧
      ∀ {m m' : Machine}, m.Alike m' → ∀ time, (m.sleep time).Alike (m'.sleep time) ∧
        ∀ i, SameResult Machine.Alike (m.takeEvent i time) (m'.takeEvent i time) := by
  refine ⟨.of_respects (Terminal.respects_atEnd .host), fun h now => ?_, fun h e => ?_, fun circuits => ?_,
    fun h time => ?_⟩
  · exact ⟨fun c => c.step_alike h now, fun c => c.step_alike h now⟩
  · exact ⟨(h.inbound e).pending_eq, fun wait => (Terminal.respects_ofEnd e).take wait h⟩
  · exact .of_respects fun i => Machine.respects_terminal (circuits.getD i 0)
  · exact ⟨h.sleep time, fun i => h.takeEvent i time⟩

/-- Two samples go out in a frame that was full of something else. -/
theorem stale_unseen_two :
    let lane (b : UInt8) : Lane :=
      { home := ⟨64, 1, ⟨1, [{ slot := 0, window := List.replicate 64 b }], by decide, Nat.le_refl 1⟩⟩
        waiting := Queue.new 1 }
    let link (b : UInt8) : Link := { toHost := lane b, toDevice := lane b }
    let t : Transmitter := { sequences := [0], format := .sc16, rate := 1, packetSamples := 8 }
    let sent (b : UInt8) := t.send Terminal.host [[(⟨1, 2⟩ : Iq Int16), ⟨3, 4⟩]] 2 0 {} [link b]
    (link 0).Alike (link 7) ∧ SameResult (SameResult (List.Forall₂ Link.Alike)) (sent 0) (sent 7) ∧
      (sent 7).2.2.map (·.toDevice.pending) =
        [[[1, 0, 0, 0, 0, 0, 0, 8, 0, 0, 0, 0, 0, 0, 0, 0, 0, 1, 0, 2, 0, 3, 0, 4]]] := by
  intro lane link t sent
  have hlane : (lane 0).Alike (lane 7) := ⟨⟨rfl, rfl, rfl, .cons ⟨rfl, by simp, rfl⟩ .nil⟩, rfl, .nil⟩
  have hlink : (link 0).Alike (link 7) := ⟨fun e => by cases e <;> exact hlane, rfl⟩
  exact ⟨hlink, stale_unseen.1.send (.cons hlink .nil) t _ 2 0 {}, by decide⟩

end RadioStream.Sim
