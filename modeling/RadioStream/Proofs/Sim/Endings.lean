import RadioStream.Proofs.RoundTrip
import RadioStream.Proofs.Sim.Run
/-!
# Reports of the end of a stream

A stream ends with a report when a command comes too late or when a count that promises a
follow-up has run out and there is none. The chain sends each of these reports once: it
does not try again when there is no frame for it, as it does for an overflow, and a
count of zero that no burst carries is not reported at all.

`ReceiveChain.endings` reads off a chain and its link that a step ends the stream, and
`ReceiveChain.forgotten` that a step loses the report. `endings_accounted` says that every
end is reported, owed or forgotten, and that the reports come in the order of the ends.
-/

namespace RadioStream

/-- A report that the stream has ended. -/
def Incoming.endsStream : Incoming → Bool
  | .status .lateCommand _ | .status .brokenChain _ => true
  | _ => false

namespace Sim

open ReceiveChain

/-! ## What the host reads -/

/-- The report of a condition at a tick. -/
def report (code : RxCode) (tick : Nat) : Incoming := .status code (some (UInt64.ofNat tick))

theorem ofFrame_statusBytes (format : WireFormat) (code : RxCode) (tick : Nat) :
    Incoming.ofFrame format (statusBytes code tick) = report code tick := by
  have hlen : (bigEndian 4 code.wire.toNat).length = 4 := length_bigEndian _ _
  have hd := Header.decode_bytes (Header.stamped { kind := .status, payloadLength := 4 } (some (UInt64.ofNat tick)))
    (bigEndian 4 code.wire.toNat) (by rw [hlen]; exact Nat.le_refl 4)
  have ht : (bigEndian 4 code.wire.toNat).take (4 : UInt32).toNat = bigEndian 4 code.wire.toNat :=
    List.take_of_length_le hlen.le
  unfold Incoming.ofFrame
  rw [statusBytes, hd]
  dsimp only [Header.stamped]
  rw [ht, code.decode_payload]
  rfl

/-- Samples end no stream. -/
theorem endsStream_data (format : WireFormat) {h : Header} (xs : List (Iq Int16)) (hk : h.kind = .data) :
    (Incoming.ofFrame format (DataPacket.bytes format h xs)).endsStream = false := by
  obtain ⟨n, hn⟩ := Incoming.ofFrame_bytes format xs hk
  rw [hn]
  rfl

/-! ## One step -/

namespace ReceiveChain

/-- The ends of a stream at a step: the oldest command is late, or a count that promises a
follow-up runs out with its last packet, or has no samples to begin with. -/
def endings (now : Reading) (c : ReceiveChain) (l : Link) : List Incoming :=
  match c.phase, c.burst, c.commands with
  | .begin, none, command :: commands => match c.startTick? now.tick command with
    | none => [report .lateCommand now.tick]
    | some tick =>
      if command.mode = .samplesAndMore ∧ command.samples = 0 ∧ commands = [] then [report .brokenChain tick]
      else []
  | .produce, some b, [] =>
    if b.mode = .samplesAndMore ∧ b.remaining ≤ c.packetSamples ∧ now.left? (b.nextTick + b.remaining) = some 0 ∧
      !l.toHost.home.idle.items.isEmpty then [report .brokenChain (b.nextTick + b.remaining)]
    else []
  | _, _, _ => []

/-- The report that the chain has in mind. -/
def owed (c : ReceiveChain) : List Incoming :=
  match c.phase with
  | .breakOff tick => [report .brokenChain tick]
  | _ => []

/-- The reports that a step loses: there is no frame for them, or the count was zero. -/
def forgotten (now : Reading) (c : ReceiveChain) (l : Link) : List Incoming :=
  match c.phase with
  | .begin => (endings now c l).filter fun r => !(r == report .lateCommand now.tick && statusFits l)
  | .breakOff _ => if statusFits l then [] else c.owed
  | _ => []

/-- What some emissions report of the end of the stream. -/
def reports (format : WireFormat) (said : List Emission) : List Incoming :=
  (said.map fun e => Incoming.ofFrame format (e.bytes format)).filter Incoming.endsStream

variable {now : Reading} {c c' : ReceiveChain} {l : Link} {heard : List Bytes} {said : List Emission}

theorem reports_data (format : WireFormat) {p : DataPacket} (hk : p.header.kind = .data) :
    reports format [.data p] = [] := by
  rw [reports, List.map_singleton, List.filter_singleton, Emission.bytes, endsStream_data format p.samples hk]
  rfl

theorem reports_status (format : WireFormat) (code : RxCode) (tick : Nat) :
    reports format [.status code tick] = [report code tick].filter Incoming.endsStream := by
  rw [reports, List.map_singleton, Emission.bytes, ofFrame_statusBytes]

theorem owed_goTo {phase : ReceivePhase} (h : ∀ tick, phase ≠ .breakOff tick) : (c.goTo phase).owed = [] := by
  cases phase with
  | breakOff tick => exact absurd rfl (h tick)
  | _ => rfl

theorem owed_handle (c : ReceiveChain) (command : StreamCommand) : (c.handle command).owed = [] := by
  unfold handle
  split
  · dsimp only
    split <;> rfl
  · split <;> rfl

theorem owed_start (c : ReceiveChain) (command : StreamCommand) (tick : Nat) : (c.start command tick).owed = [] := by
  unfold start
  split
  · unfold goTo
    by_cases h : command.mode = .samplesAndDone
    · rw [if_pos h]
      rfl
    · rw [if_neg h]
      rfl
  · rfl

theorem owed_overflowed (c : ReceiveChain) (b : Burst) (n : Nat) : (c.overflowed b n).owed = [] := by
  unfold overflowed
  dsimp only
  split <;> rfl

/-- After the last packet of a count that promises a follow-up the chain has in mind that
there is none. -/
theorem owed_advanced (c : ReceiveChain) (b : Burst) :
    (c.advanced b (b.count c.packetSamples)).owed =
      if b.mode = .samplesAndMore ∧ b.remaining ≤ c.packetSamples ∧ c.commands = [] then
        [report .brokenChain (b.nextTick + b.remaining)]
      else [] := by
  unfold advanced
  cases hm : b.mode with
  | startContinuous | stopContinuous => simp [owed, hm, Burst.sent, StreamMode.isFixedCount]
  | samplesAndDone =>
    by_cases hr : b.remaining ≤ c.packetSamples
    · simp [owed, hm, Burst.sent, Burst.count, StreamMode.isFixedCount, hr]
    · have hlt : b.remaining - min b.remaining c.packetSamples ≠ 0 := by omega
      simp [owed, hm, Burst.sent, Burst.count, StreamMode.isFixedCount, hlt]
  | samplesAndMore =>
    by_cases hr : b.remaining ≤ c.packetSamples
    · cases c.commands <;> simp [owed, hm, hr, Burst.sent, Burst.count, StreamMode.isFixedCount]
    · have hlt : b.remaining - min b.remaining c.packetSamples ≠ 0 := by omega
      simp [owed, hm, hr, Burst.sent, Burst.count, StreamMode.isFixedCount, hlt]

theorem endings_produce {b : Burst} (hp : c.phase = .produce) (hb : c.burst = some b) :
    endings now c l =
      if b.mode = .samplesAndMore ∧ b.remaining ≤ c.packetSamples ∧ c.commands = [] ∧
        now.left? (b.nextTick + b.count c.packetSamples) = some 0 ∧ l.toHost.home.idle.items ≠ [] then
        [report .brokenChain (b.nextTick + b.remaining)]
      else [] := by
  by_cases hm : b.mode = .samplesAndMore ∧ b.remaining ≤ c.packetSamples
  · have hn : b.count c.packetSamples = b.remaining := by
      simp [Burst.count, hm.1, StreamMode.isFixedCount, hm.2]
    rw [hn]
    cases hc : c.commands <;> simp [endings, hp, hb, hc, hm]
  · rcases not_and_or.1 hm with hm | hm <;> cases hc : c.commands <;> simp [endings, hp, hb, hc, hm]

/-- A count of zero that no burst carries is not reported. -/
theorem forgotten_begin {command : StreamCommand} {commands : List StreamCommand} {tick : Nat} (hp : c.phase = .begin)
    (hb : c.burst = none) (hc : c.commands = command :: commands) (ht : c.startTick? now.tick command = some tick) :
    forgotten now c l = c.owed ++ endings now c l := by
  have ho : c.owed = [] := by simp [owed, hp]
  rw [ho, List.nil_append]
  unfold forgotten
  rw [hp]
  dsimp only
  simp only [endings, hp, hb, hc, ht]
  split <;> rfl

/-- A step that is not about the end of a stream. -/
theorem accounts_nothing {format : WireFormat} (hp : ∀ tick, c.phase ≠ .breakOff tick) (he : endings now c l = [])
    (hs : reports format said = []) (ho : c'.owed = []) :
    (c.owed ++ endings now c l = reports format said ++ c'.owed ∧ forgotten now c l = []) ∨
      (reports format said ++ c'.owed = [] ∧ forgotten now c l = c.owed ++ endings now c l) := by
  left
  have hc : c.owed = [] := by
    rw [← owed_goTo hp]
    rfl
  refine ⟨by rw [hc, he, hs, ho], ?_⟩
  unfold forgotten
  split
  · rw [he]
    rfl
  · next tick hb => exact absurd hb (hp tick)
  · rfl

/-- What a step has in mind and what ends at it is reported or owed after it, in this
order, or all of it is forgotten. -/
theorem Move.accounts (h : Move now c l heard said c') (format : WireFormat) :
    (c.owed ++ endings now c l = reports format said ++ c'.owed ∧ forgotten now c l = []) ∨
      (reports format said ++ c'.owed = [] ∧ forgotten now c l = c.owed ++ endings now c l) := by
  cases h with
  | closed hp => exact accounts_nothing (by simp [hp]) (by simp [endings, hp]) rfl rfl
  | heard hp => exact accounts_nothing (by simp [hp]) (by simp [endings, hp]) rfl (owed_handle _ _)
  | unheard hp => exact accounts_nothing (by simp [hp]) (by simp [endings, hp]) rfl rfl
  | settled hp => exact accounts_nothing (by simp [hp]) (by simp [endings, hp]) rfl rfl
  | reported hp =>
    exact accounts_nothing (by simp [hp]) (by simp [endings, hp]) (reports_status _ _ _) rfl
  | unreported hp =>
    refine accounts_nothing (by simp [hp]) (by simp [endings, hp]) rfl (owed_goTo fun tick => ?_)
    split <;> simp
  | goOn hp hb => exact accounts_nothing (by simp [hp]) (by simp [endings, hp, hb]) rfl rfl
  | idle hp hb hc => exact accounts_nothing (by simp [hp]) (by simp [endings, hp, hb, hc]) rfl rfl
  | untiled hp hb hc hi hz =>
    exact .inr ⟨rfl, forgotten_begin hp hb hc (by rw [startTick?, if_pos hi])⟩
  | begin hp hb hc hi ht => exact .inr ⟨owed_start _ _ _, forgotten_begin hp hb hc ht⟩
  | late hp hb hc ht htold =>
    have he : endings now c l = [report .lateCommand now.tick] := by simp only [endings, hp, hb, hc, ht]
    have ho : c.owed = [] := by simp only [owed, hp]
    have hf : forgotten now c l = if statusFits l then [] else [report .lateCommand now.tick] := by
      simp only [forgotten, hp, he, List.filter_singleton, beq_self_eq_true, Bool.true_and]
      cases statusFits l <;> rfl
    rw [he, ho, hf]
    cases htold with
    | out hfit => exact .inl ⟨by rw [reports_status]; rfl, by rw [if_pos hfit]⟩
    | lost hfit => exact .inr ⟨rfl, by rw [hfit]; rfl⟩
  | unburst hp hb => exact accounts_nothing (by simp [hp]) (by simp [endings, hp, hb]) rfl rfl
  | timeless hp hb ht => exact accounts_nothing (by simp [hp]) (by simp [endings_produce hp hb, ht]) rfl rfl
  | early hp hb ht => exact accounts_nothing (by simp [hp]) (by simp [endings_produce hp hb, ht]) rfl rfl
  | @sent b hp hb ht hi =>
    -- the last packet is on the link, the report is still owed
    left
    have ho : c.owed = [] := by simp only [owed, hp]
    refine ⟨?_, by simp only [forgotten, hp]⟩
    rw [endings_produce hp hb, owed_advanced, reports_data format (show (c.packet b).header.kind = .data from rfl), ho]
    simp only [ht, hi, ne_eq, not_false_eq_true, and_true]
  | missed hp hb ht hi =>
    exact accounts_nothing (by simp [hp]) (by simp [endings_produce hp hb, hi]) rfl (owed_overflowed _ _ _)
  | finished hp => exact accounts_nothing (by simp [hp]) (by simp [endings, hp]) (reports_data _ rfl) rfl
  | abandoned hp => exact accounts_nothing (by simp [hp]) (by simp [endings, hp]) rfl rfl
  | stalled hp =>
    refine accounts_nothing (by simp [hp]) (by simp [endings, hp]) rfl ?_
    simp [owed, hp]
  | @brokeOff tick _ hp htold =>
    have he : endings now c l = [] := by simp only [endings, hp]
    have ho : c.owed = [report .brokenChain tick] := by simp only [owed, hp]
    have hf : forgotten now c l = if statusFits l then [] else c.owed := by simp only [forgotten, hp]
    rw [he, hf, ho]
    cases htold with
    | out hfit => exact .inl ⟨by rw [reports_status]; rfl, by rw [if_pos hfit]⟩
    | lost hfit => exact .inr ⟨rfl, by rw [hfit]; rfl⟩
  | rested hp => exact accounts_nothing (by simp [hp]) (by simp [endings, hp]) rfl rfl
  | stopped hp =>
    refine accounts_nothing (by simp [hp]) (by simp [endings, hp]) rfl ?_
    simp [owed, hp]

end ReceiveChain

/-! ## Runs -/

namespace Station

/-- The reports of the end of the stream that the chain has put on the link. -/
def reported (x : Station) : List Incoming :=
  (x.log.map fun e => Incoming.ofFrame x.chain.format e.2).filter Incoming.endsStream

/-- The ends of the stream in a run. -/
def endings (x : Station) (as : List StationAction) : List Incoming :=
  (x.moments as).flatMap fun m => ReceiveChain.endings m.2 m.1.chain m.1.link

/-- The reports that are lost in a run. -/
def forgotten (x : Station) (as : List StationAction) : List Incoming :=
  (x.moments as).flatMap fun m => ReceiveChain.forgotten m.2 m.1.chain m.1.link

/-- Every end is reported, owed or lost, and those that are not lost come in their order. -/
structure Accounted (x : Station) (ended lost : List Incoming) : Prop where
  ordered : (x.reported ++ x.chain.owed).Sublist ended
  complete : (x.reported ++ x.chain.owed ++ lost).Perm ended

variable {room : Nat} {x : Station} {es : List (Nat × Emission)} {ended lost : List Incoming}

theorem Logged.reported (h : x.Logged room es) : x.reported = reports x.chain.format (es.map (·.2)) := by
  rw [Station.reported, h.log, reports, List.map_map, List.map_map]
  rfl

/-- A step of the chain. -/
theorem Accounted.tick (h : x.Accounted ended lost) (hl : x.Logged room es) (now : Reading) :
    (x.tick now).Accounted (ended ++ ReceiveChain.endings now x.chain x.link)
      (lost ++ ReceiveChain.forgotten now x.chain x.link) := by
  obtain ⟨heard, said, hm, -, hl', -⟩ := hl.tick now
  have hr : (x.tick now).reported = x.reported ++ reports x.chain.format said := by
    rw [hl'.reported, hl.reported, hm.fixed.1]
    simp [reports, Function.comp_def]
  obtain ⟨ho, hc⟩ := h
  rcases hm.accounts x.chain.format with ⟨he, hf⟩ | ⟨he, hf⟩
  · have ha : (x.tick now).reported ++ (x.tick now).chain.owed =
        x.reported ++ x.chain.owed ++ ReceiveChain.endings now x.chain x.link := by
      rw [hr, List.append_assoc, ← he, List.append_assoc]
    rw [hf, List.append_nil]
    refine ⟨?_, ?_⟩
    · rw [ha]
      exact ho.append_right _
    · rw [ha, List.append_assoc]
      refine (List.perm_append_comm.append_left _).trans ?_
      rw [← List.append_assoc]
      exact hc.append_right _
  · -- nothing is reported, and what was owed is lost with what ends now
    have ha : (x.tick now).reported ++ (x.tick now).chain.owed = x.reported := by
      rw [hr, List.append_assoc, he, List.append_nil]
    rw [hf]
    refine ⟨?_, ?_⟩
    · rw [ha]
      exact ((List.sublist_append_left _ _).trans ho).trans (List.sublist_append_left _ _)
    · rw [ha, ← List.append_assoc, ← List.append_assoc]
      refine List.Perm.append_right _ (List.Perm.trans ?_ hc)
      rw [List.append_assoc, List.append_assoc]
      exact List.perm_append_comm.append_left _

theorem Accounted.run (h : x.Accounted ended lost) (hl : x.Logged room es) (as : List StationAction) :
    (x.run as).Accounted (ended ++ x.endings as) (lost ++ x.forgotten as) := by
  induction as generalizing x es ended lost with
  | nil =>
    show x.Accounted (ended ++ []) (lost ++ [])
    rw [List.append_nil, List.append_nil]
    exact h
  | cons a as ih =>
    have he : x.endings (a :: as) = (a.reading?.toList.flatMap fun now => ReceiveChain.endings now x.chain x.link) ++
        (x.step a).endings as := by
      simp [Station.endings, moments, List.flatMap_map]
    have hf : x.forgotten (a :: as) =
        (a.reading?.toList.flatMap fun now => ReceiveChain.forgotten now x.chain x.link) ++
          (x.step a).forgotten as := by
      simp [Station.forgotten, moments, List.flatMap_map]
    rw [he, hf, ← List.append_assoc, ← List.append_assoc]
    obtain ⟨⟨es', hl'⟩, -⟩ := hl.step a
    refine ih ?_ hl'
    cases ha : a.reading? with
    | none =>
      obtain ⟨hc, -, hl'', -⟩ := hl.host ha
      have hr : (x.step a).reported = x.reported := by rw [hl''.reported, hl.reported, hc]
      simp only [Option.toList_none, List.flatMap_nil, List.append_nil]
      exact ⟨by rw [hr, hc]; exact h.ordered, by rw [hr, hc]; exact h.complete⟩
    | some now =>
      cases a with
      | chain now' =>
        cases ha
        simp only [Option.toList_some, List.flatMap_singleton]
        exact h.tick hl now
      | post | take | release | close => cases ha

end Station

/-- Whatever commands come in and whenever there are frames: each end of the stream by a
late command or a broken chain is reported, owed or lost, and it is lost exactly if
there is no frame at the one step that reports it, or no burst carries the count. -/
theorem endings_accounted {g : Geometry} {l : Link} (hl : Link.new g = .ok l) (format : WireFormat) (rate : Float)
    {most : Nat} (hroom : Header.size + most * format.sampleBytes ≤ g.recvFrameSize) (as : List StationAction) :
    let x := Station.fresh format rate most l
    let y := x.run as
    (y.reported ++ y.chain.owed).Sublist (x.endings as) ∧
      (y.reported ++ y.chain.owed ++ x.forgotten as).Perm (x.endings as) ∧
      (y.reported ++ y.chain.owed = x.endings as ↔ x.forgotten as = []) := by
  intro x y
  obtain ⟨hlogged, -⟩ := Station.Logged.of_new hl format rate hroom
  have hfresh : x.Accounted [] [] := ⟨List.Sublist.refl _, List.Perm.refl _⟩
  obtain ⟨ho, hc⟩ := hfresh.run hlogged as
  rw [List.nil_append] at ho hc
  rw [List.nil_append] at hc
  refine ⟨ho, hc, ?_⟩
  have hlen : (y.reported ++ y.chain.owed).length + (x.forgotten as).length = (x.endings as).length := by
    rw [← List.length_append]
    exact hc.length_eq
  constructor
  · intro he
    have hl : (y.reported ++ y.chain.owed).length = (x.endings as).length := by rw [he]
    exact List.eq_nil_of_length_eq_zero (by omega)
  · intro hf
    rw [hf, List.length_nil] at hlen
    exact ho.eq_of_length hlen

/-- One frame. The host does not take the packet of the first count before the chain
reports that nothing follows, and lets it go before the second. -/
theorem endings_accounted_lost :
    let post (mode : StreamMode) : StationAction :=
      .post ((StreamCommand.now mode 2 : StreamCommand).encode 1 (List.replicate 28 0)).frame
    let steps (n tick : Nat) : List StationAction := List.replicate n (.chain (.at tick))
    let as := post .samplesAndMore :: steps 4 1 ++ steps 3 4 ++ [.take, .release 0, post .samplesAndMore] ++
      steps 6 6 ++ [.chain (.at 8), .take, .release 0, .chain (.at 8)]
    let g : Geometry := { recvFrameSize := 24, sendFrameSize := 28, recvFrames := 1, sendFrames := 1 }
    ∃ l, Link.new g = .ok l ∧ Header.size + 2 * WireFormat.sampleBytes .sc16 ≤ g.recvFrameSize ∧
      let x := Station.fresh .sc16 1 2 l
      let y := x.run as
      y.reported ++ y.chain.owed = [report .brokenChain 8] ∧ x.forgotten as = [report .brokenChain 4] ∧
      (y.reported ++ y.chain.owed).Sublist (x.endings as) ∧
      (y.reported ++ y.chain.owed ++ x.forgotten as).Perm (x.endings as) ∧
      (y.reported ++ y.chain.owed = x.endings as ↔ x.forgotten as = []) := by
  intro post steps as g
  have hroom : Header.size + 2 * WireFormat.sampleBytes .sc16 ≤ g.recvFrameSize := by decide
  have hl : ∃ l, Link.new g = .ok l := ⟨_, rfl⟩
  obtain ⟨l, hl⟩ := hl
  refine ⟨l, hl, hroom, ?_, ?_, endings_accounted hl .sc16 1 hroom as⟩
  · cases hl
    decide +kernel
  · cases hl
    decide +kernel

end Sim

end RadioStream
