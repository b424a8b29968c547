import RadioStream.Proofs.Sim.Station
/-!
# The moves of a receive chain

`Move` lists what a receive chain may do in one step, one constructor for each way it
goes, with the frames that it takes from its link and what it sends. `step_moves` says
that a step is one of these moves, and that the link has what was sent: as long as its
frames are large enough, what the chain sends is never lost.
-/

namespace RadioStream

/-! ## Writing a packet into a frame -/

namespace Header

/-- A packet that fits is written at the start of the frame. -/
theorem encodePacket_fits (h : Header) {payload frame : Bytes} (hfit : size + payload.length ≤ frame.length) :
    ∃ w, h.encodePacket payload frame = ⟨.ok (size + payload.length), w⟩ ∧ w.length = frame.length ∧
      w.take (size + payload.length) = { h with payloadLength := UInt32.ofNat payload.length }.bytes ++ payload := by
  have hl : ({ h with payloadLength := UInt32.ofNat payload.length }.bytes ++ payload).length =
      size + payload.length := by
    rw [List.length_append, length_bytes]
  refine ⟨splice frame 0 ({ h with payloadLength := UInt32.ofNat payload.length }.bytes ++ payload), ?_, ?_, ?_⟩
  · unfold encodePacket
    dsimp only
    rw [if_neg (by omega)]
  · exact length_splice (by rw [hl]; omega)
  · rw [splice, List.take_zero, List.nil_append]
    exact List.take_left' hl

/-- One that does not fit is not written. -/
theorem encodePacket_short (h : Header) {payload frame : Bytes} (hshort : frame.length < size + payload.length) :
    ∃ e, h.encodePacket payload frame = ⟨.error e, frame⟩ := by
  unfold encodePacket
  dsimp only
  rw [if_pos hshort]
  exact ⟨_, rfl⟩

end Header

namespace Sim

theorem Burst.count_le (b : Burst) (most : Nat) : b.count most ≤ most := by
  unfold Burst.count
  split
  · exact Nat.min_le_right _ _
  · exact le_rfl

namespace ReceiveChain

section Sending

variable {room : Nat} {away : List Frame} {l : Link} {write : Bytes → Written}

theorem acquire_device (l : Link) :
    (Terminal.ofEnd .device).acquire 0 l = (l.toHost.acquire.1, { l with toHost := l.toHost.acquire.2 }) := rfl

theorem send_full (write : Bytes → Written) (h : l.toHost.home.idle.items = []) : send write l = (none, l) := by
  unfold send Terminal.send
  rw [acquire_device]
  rcases ha : l.toHost.acquire with ⟨_ | f, lane⟩
  · obtain ⟨-, rfl⟩ := Lane.acquire_none ha
    rfl
  · have hi := (Lane.acquire_some ha).1
    rw [h] at hi
    cases hi

/-- A chain that finds an idle frame writes into it. What was written is on the link,
and a frame without a packet goes home. -/
theorem send_spec (write : Bytes → Written) {f : Frame} {fs : List Frame} (hs : l.toHost.Stocked room 0 away)
    (hi : l.toHost.home.idle.items = f :: fs) (hlen : (write f.window).frame.length = f.window.length)
    (hok : ∀ n, (write f.window).outcome = .ok n → 0 < n ∧ n ≤ f.window.length) :
    ∃ lane, send write l = (some (write f.window).outcome, { l with toHost := lane }) ∧
      lane.Stocked room 0 away ∧ lane.pending = l.toHost.pending ++ (write f.window).packets := by
  rcases ha : l.toHost.acquire with ⟨_ | g, lane⟩
  · rw [(Lane.acquire_none ha).1] at hi
    cases hi
  · obtain ⟨hg, hw⟩ := Lane.acquire_some ha
    rw [hi, List.cons.injEq] at hg
    obtain rfl := hg.1
    obtain ⟨hf, hst⟩ := hs.acquire ha
    obtain ⟨hst', hp⟩ := hst.post hf hlen hok
    unfold send Terminal.send
    rw [acquire_device, ha]
    dsimp only
    rw [Terminal.sendIn_eq]
    refine ⟨_, rfl, hst', hp.trans ?_⟩
    rw [Lane.pending, hw, Lane.pending]

/-- A data packet for which the frames have room is sent. -/
theorem send_data (hs : l.toHost.Stocked room 0 away) (h : Header) (format : WireFormat) {xs : List (Iq Int16)}
    (hfit : Header.size + xs.length * format.sampleBytes ≤ room) (hi : l.toHost.home.idle.items ≠ []) :
    ∃ n lane, send (h.encodeSamples format xs) l = (some (.ok n), { l with toHost := lane }) ∧
      lane.Stocked room 0 away ∧ lane.pending = l.toHost.pending ++ [DataPacket.bytes format h xs] := by
  obtain ⟨f, fs, hf⟩ := List.exists_cons_of_ne_nil hi
  have hroom := hs.roomy f (by simp [hf])
  have hfit' : Header.size + xs.length * format.sampleBytes ≤ f.window.length := by omega
  obtain ⟨w, hw, hwl, hwt⟩ := h.encodeSamples_spec format hfit'
  obtain ⟨lane, he, hst, hp⟩ := send_spec (h.encodeSamples format xs) hs hf (by rw [hw, hwl]) (by
    rw [hw]
    intro n hn
    cases hn
    exact ⟨Nat.add_pos_left (by decide) _, hfit'⟩)
  refine ⟨_, lane, by rw [he, hw], hst, ?_⟩
  have hid : xs.map (HostSample.toRaw (σ := Iq Int16)) = xs := List.map_id xs
  rw [hp, hw, Written.packets]
  dsimp only
  rw [hwt, hid]

/-- So is a packet with a payload, where the first frame has room for it. -/
theorem send_packet (hs : l.toHost.Stocked room 0 away) (h : Header) (payload : Bytes) {f : Frame} {fs : List Frame}
    (hi : l.toHost.home.idle.items = f :: fs) (hfit : Header.size + payload.length ≤ f.window.length) :
    ∃ n lane, send (h.encodePacket payload) l = (some (.ok n), { l with toHost := lane }) ∧
      lane.Stocked room 0 away ∧ lane.pending = l.toHost.pending ++
        [{ h with payloadLength := UInt32.ofNat payload.length }.bytes ++ payload] := by
  obtain ⟨w, hw, hwl, hwt⟩ := h.encodePacket_fits hfit
  obtain ⟨lane, he, hst, hp⟩ := send_spec (h.encodePacket payload) hs hi (by rw [hw, hwl]) (by
    rw [hw]
    intro n hn
    cases hn
    exact ⟨Nat.add_pos_left (by decide) _, hfit⟩)
  refine ⟨_, lane, by rw [he, hw], hst, ?_⟩
  rw [hp, hw, Written.packets]
  dsimp only
  rw [hwt]

/-- Where it has none, the frame goes home. -/
theorem send_packet_short (hs : l.toHost.Stocked room 0 away) (h : Header) (payload : Bytes) {f : Frame}
    {fs : List Frame} (hi : l.toHost.home.idle.items = f :: fs)
    (hshort : f.window.length < Header.size + payload.length) :
    ∃ e lane, send (h.encodePacket payload) l = (some (.error e), { l with toHost := lane }) ∧
      lane.Stocked room 0 away ∧ lane.pending = l.toHost.pending := by
  obtain ⟨e, hw⟩ := h.encodePacket_short hshort
  obtain ⟨lane, he, hst, hp⟩ := send_spec (h.encodePacket payload) hs hi (by rw [hw]) (by
    rw [hw]
    intro n hn
    cases hn)
  refine ⟨e, lane, by rw [he, hw], hst, ?_⟩
  rw [hp, hw, Written.packets, List.append_nil]

/-- Whether there is a frame for a status. -/
def statusFits (l : Link) : Bool :=
  l.toHost.home.idle.items.head?.any fun f => Header.size + 4 ≤ f.window.length

/-- What becomes of a status: it is sent, or there is no frame for it. -/
inductive Told (l : Link) (code : RxCode) (tick : Nat) : List Emission → Prop
  | out : statusFits l = true → Told l code tick [.status code tick]
  | lost : statusFits l = false → Told l code tick []

theorem sendStatus_spec (hs : l.toHost.Stocked room 0 away) (format : WireFormat) (code : RxCode) (tick : Nat) :
    ∃ said lane, sendStatus code tick l = (!said.isEmpty, { l with toHost := lane }) ∧ Told l code tick said ∧
      lane.Stocked room 0 away ∧ lane.pending = l.toHost.pending ++ said.map (Emission.bytes format) := by
  have hw : code.encode (some (UInt64.ofNat tick)) =
      (Header.stamped { kind := .status } (some (UInt64.ofNat tick))).encodePacket (bigEndian 4 code.wire.toNat) := rfl
  unfold sendStatus
  rw [hw]
  cases hi : l.toHost.home.idle.items with
  | nil =>
    rw [send_full _ hi]
    exact ⟨[], l.toHost, rfl, .lost (by simp [statusFits, hi]), hs, by simp⟩
  | cons f fs =>
    by_cases hfit : Header.size + (bigEndian 4 code.wire.toNat).length ≤ f.window.length
    · obtain ⟨n, lane, he, hst, hp⟩ := send_packet hs (Header.stamped { kind := .status } (some (UInt64.ofNat tick)))
        (bigEndian 4 code.wire.toNat) hi hfit
      rw [he]
      rw [length_bigEndian] at hfit
      refine ⟨[.status code tick], lane, rfl, .out (by simpa [statusFits, hi] using hfit), hst, ?_⟩
      rw [hp, length_bigEndian]
      rfl
    · obtain ⟨e, lane, he, hst, hp⟩ := send_packet_short hs
        (Header.stamped { kind := .status } (some (UInt64.ofNat tick))) (bigEndian 4 code.wire.toNat) hi (by omega)
      rw [he]
      rw [length_bigEndian] at hfit
      exact ⟨[], lane, rfl, .lost (by simpa [statusFits, hi] using hfit), hst, by simp [hp]⟩

end Sending

/-! ## The moves -/

/-- The empty packet that ends a burst. -/
def closing (c : ReceiveChain) (tick : Nat) : DataPacket where
  header := Header.stamped { endOfBurst := true, sequence := c.sequence } (some (UInt64.ofNat tick))
  samples := []

/-- The next packet of a burst. -/
def packet (c : ReceiveChain) (b : Burst) : DataPacket where
  header := b.header (b.count c.packetSamples) c.sequence
  samples := b.samples (b.count c.packetSamples)

theorem length_packet (c : ReceiveChain) (b : Burst) : (c.packet b).samples.length = b.count c.packetSamples := by
  simp [packet, Burst.samples]

theorem start_packet (c : ReceiveChain) {b : Burst} (h : b.nextTick < 2 ^ 64) : (c.packet b).start = b.nextTick :=
  UInt64.toNat_ofNat_of_lt' h

theorem stop_packet (c : ReceiveChain) {b : Burst} (h : b.nextTick < 2 ^ 64) :
    (c.packet b).stop = b.nextTick + b.count c.packetSamples := by
  rw [DataPacket.stop, c.start_packet h, length_packet]

/-- What a chain does in one step, with the frames that it takes and what it sends. -/
inductive Move (now : Reading) (c : ReceiveChain) (l : Link) : List Bytes → List Emission → ReceiveChain → Prop
  /-- The link was given up. -/
  | closed : c.phase = .listen → l.closed = true → Move now c l [] [] (c.goTo .stopped)
  /-- A command came in. -/
  | heard {f : Bytes} {command : StreamCommand} : c.phase = .listen → command? c.rate f = some command →
      Move now c l [f] [] (c.handle command)
  /-- No command came in. -/
  | unheard {fs : List Bytes} : c.phase = .listen → fs.length ≤ 1 → (∀ f ∈ fs, command? c.rate f = none) →
      Move now c l fs [] (c.goTo .report)
  /-- No overflow is owed. -/
  | settled : c.phase = .report → c.overflow = none → Move now c l [] [] (c.goTo .begin)
  | reported {tick : Nat} : c.phase = .report → c.overflow = some tick →
      Told l .overflow tick [.status .overflow tick] →
      Move now c l [] [.status .overflow tick] { c with overflow := none, phase := .begin }
  | unreported {tick : Nat} : c.phase = .report → c.overflow = some tick → Told l .overflow tick [] →
      Move now c l [] [] (c.goTo (if c.burst.isNone then .rest poll else .begin))
  /-- A burst is in progress. -/
  | goOn {b : Burst} : c.phase = .begin → c.burst = some b → Move now c l [] [] (c.goTo .produce)
  /-- There is nothing to begin. -/
  | idle : c.phase = .begin → c.burst = none → c.commands = [] → Move now c l [] [] (c.goTo .listen)
  /-- Packets of no size tile no ticks. -/
  | untiled {command : StreamCommand} {commands : List StreamCommand} : c.phase = .begin → c.burst = none →
      c.commands = command :: commands → command.immediate = true → c.packetSamples = 0 →
      Move now c l [] [] { c with commands, phase := .stopped }
  | begin {command : StreamCommand} {commands : List StreamCommand} {tick : Nat} : c.phase = .begin →
      c.burst = none → c.commands = command :: commands → (command.immediate = true → 0 < c.packetSamples) →
      c.startTick? now.tick command = some tick → Move now c l [] [] (start { c with commands } command tick)
  /-- The time of a command has passed. -/
  | late {command : StreamCommand} {commands : List StreamCommand} {said : List Emission} : c.phase = .begin →
      c.burst = none → c.commands = command :: commands → c.startTick? now.tick command = none →
      Told l .lateCommand now.tick said → Move now c l [] said { c with commands, phase := .listen }
  | unburst : c.phase = .produce → c.burst = none → Move now c l [] [] (c.goTo .listen)
  /-- The clock cannot tell the time left. -/
  | timeless {b : Burst} : c.phase = .produce → c.burst = some b →
      now.left? (b.nextTick + b.count c.packetSamples) = none → Move now c l [] [] (c.goTo .stopped)
  | early {b : Burst} {time : Nat} : c.phase = .produce → c.burst = some b →
      now.left? (b.nextTick + b.count c.packetSamples) = some (time + 1) →
      Move now c l [] [] (c.goTo (.rest (min (time + 1) poll)))
  | sent {b : Burst} : c.phase = .produce → c.burst = some b →
      now.left? (b.nextTick + b.count c.packetSamples) = some 0 → l.toHost.home.idle.items ≠ [] →
      Move now c l [] [.data (c.packet b)] (c.advanced b (b.count c.packetSamples))
  /-- There is no frame for the packet. -/
  | missed {b : Burst} : c.phase = .produce → c.burst = some b →
      now.left? (b.nextTick + b.count c.packetSamples) = some 0 → l.toHost.home.idle.items = [] →
      Move now c l [] [] (c.overflowed b (b.count c.packetSamples))
  | finished {tick : Nat} : c.phase = .finish tick → l.toHost.home.idle.items ≠ [] →
      Move now c l [] [.data (c.closing tick)] { c with sequence := c.sequence + 1, phase := .listen }
  /-- The link was given up before there was a frame. -/
  | abandoned {tick : Nat} : c.phase = .finish tick → l.toHost.home.idle.items = [] → l.closed = true →
      Move now c l [] [] (c.goTo .stopped)
  | stalled {tick : Nat} : c.phase = .finish tick → l.toHost.home.idle.items = [] → l.closed = false →
      Move now c l [] [] c
  | brokeOff {tick : Nat} {said : List Emission} : c.phase = .breakOff tick → Told l .brokenChain tick said →
      Move now c l [] said (c.goTo .listen)
  | rested {time : Nat} : c.phase = .rest time → Move now c l [] [] (c.goTo .listen)
  | stopped : c.phase = .stopped → Move now c l [] [] c

/-- What a step of a chain does to the link: frames are taken in their order, and what
is sent is on the link. Only a chain that ends gives it up. -/
structure Exchange (room : Nat) (away : List Frame) (format : WireFormat) (c' : ReceiveChain) (l : Link)
    (heard : List Bytes) (said : List Emission) (l' : Link) : Prop where
  stocked : l'.toHost.Stocked room 0 away
  heard : l.toDevice.pending = heard ++ l'.toDevice.pending
  /-- The frames that are taken go home. -/
  device : ∀ {room k away}, l.toDevice.Stocked room k away → l'.toDevice.Stocked room k away
  said : l'.toHost.pending = l.toHost.pending ++ said.map (Emission.bytes format)
  closed : l'.closed = true → l.closed = true ∨ c'.phase = .stopped

section Steps

variable {room : Nat} {away : List Frame} {now : Reading} {c : ReceiveChain} {l : Link}

/-- A step that leaves the link alone. -/
theorem Exchange.still (hs : l.toHost.Stocked room 0 away) (format : WireFormat) (c' : ReceiveChain) :
    Exchange room away format c' l [] [] l :=
  ⟨hs, rfl, id, by simp, .inl⟩

/-- A step that ends the chain. -/
theorem Exchange.close (hs : l.toHost.Stocked room 0 away) (format : WireFormat) {c' : ReceiveChain}
    (h : c'.phase = .stopped) : Exchange room away format c' l [] [] l.close :=
  ⟨hs, rfl, id, by simp [Link.close], fun _ => .inr h⟩

/-- A step that sends. -/
theorem Exchange.sent {format : WireFormat} {said : List Emission} {lane : Lane} (hs : lane.Stocked room 0 away)
    (hp : lane.pending = l.toHost.pending ++ said.map (Emission.bytes format)) (c' : ReceiveChain) :
    Exchange room away format c' l [] said { l with toHost := lane } :=
  ⟨hs, rfl, id, hp, .inl⟩

theorem listen_moves (hs : l.toHost.Stocked room 0 away) (hp : c.phase = .listen) :
    ∃ heard said, Move now c l heard said (c.listen l).1 ∧
      Exchange room away c.format (c.listen l).1 l heard said (c.listen l).2 := by
  unfold listen
  by_cases hc : l.closed = true
  · rw [if_pos hc]
    exact ⟨[], [], .closed hp hc, .close hs c.format rfl⟩
  · rw [if_neg hc]
    rcases Terminal.take_device l with ⟨ht, -⟩ | ⟨f, lane, ht, hf, hd⟩
    · rw [ht]
      exact ⟨[], [], .unheard hp (by simp) (by simp), .still hs c.format _⟩
    · rw [ht]
      dsimp only [Option.bind_some]
      cases hk : command? c.rate f with
      | some command => exact ⟨[f], [], .heard hp hk, hs, hf, hd, by simp, .inl⟩
      | none => exact ⟨[f], [], .unheard hp (by simp) (by simpa using hk), hs, hf, hd, by simp, .inl⟩

theorem reportOverflow_moves (hs : l.toHost.Stocked room 0 away) (hp : c.phase = .report) :
    ∃ heard said, Move now c l heard said (c.reportOverflow l).1 ∧
      Exchange room away c.format (c.reportOverflow l).1 l heard said (c.reportOverflow l).2 := by
  unfold reportOverflow
  cases ho : c.overflow with
  | none => exact ⟨[], [], .settled hp ho, .still hs c.format _⟩
  | some tick =>
    obtain ⟨said, lane, he, ht, hst, hpend⟩ := sendStatus_spec hs c.format .overflow tick
    dsimp only
    rw [he]
    cases ht with
    | out hi => exact ⟨[], _, .reported hp ho (.out hi), .sent hst hpend _⟩
    | lost hi => exact ⟨[], _, .unreported hp ho (.lost hi), .sent hst hpend _⟩

theorem beginBurst_moves (hs : l.toHost.Stocked room 0 away) (hp : c.phase = .begin) :
    ∃ heard said, Move now c l heard said (c.beginBurst now l).1 ∧
      Exchange room away c.format (c.beginBurst now l).1 l heard said (c.beginBurst now l).2 := by
  unfold beginBurst
  by_cases hsome : c.burst.isSome = true
  · rw [if_pos hsome]
    obtain ⟨b, hb⟩ := Option.isSome_iff_exists.1 hsome
    exact ⟨[], [], .goOn hp hb, .still hs c.format _⟩
  · rw [if_neg hsome]
    have hb : c.burst = none := by simpa using hsome
    cases hc : c.commands with
    | nil => exact ⟨[], [], .idle hp hb hc, .still hs c.format _⟩
    | cons command commands =>
      dsimp only
      by_cases hz : (command.immediate && decide (c.packetSamples = 0)) = true
      · rw [if_pos hz]
        rw [Bool.and_eq_true, decide_eq_true_eq] at hz
        exact ⟨[], [], .untiled hp hb hc hz.1 hz.2, .close hs c.format rfl⟩
      · rw [if_neg hz]
        have hpos : command.immediate = true → 0 < c.packetSamples := by
          intro hi
          rw [hi, Bool.true_and, decide_eq_true_eq] at hz
          exact Nat.pos_of_ne_zero hz
        have ht : startTick? { c with commands } now.tick command = c.startTick? now.tick command := rfl
        rw [ht]
        cases hk : c.startTick? now.tick command with
        | some tick => exact ⟨[], [], .begin hp hb hc hpos hk, .still hs c.format _⟩
        | none =>
          obtain ⟨said, lane, he, ht, hst, hpend⟩ := sendStatus_spec hs c.format .lateCommand now.tick
          dsimp only
          rw [he]
          exact ⟨[], said, .late hp hb hc hk ht, .sent hst hpend _⟩

theorem produce_moves (hs : l.toHost.Stocked room 0 away) (hp : c.phase = .produce)
    (hroom : Header.size + c.packetSamples * c.format.sampleBytes ≤ room) :
    ∃ heard said, Move now c l heard said (c.produce now l).1 ∧
      Exchange room away c.format (c.produce now l).1 l heard said (c.produce now l).2 := by
  unfold produce
  cases hb : c.burst with
  | none => exact ⟨[], [], .unburst hp hb, .still hs c.format _⟩
  | some b =>
    dsimp only
    cases ht : now.left? (b.nextTick + b.count c.packetSamples) with
    | none => exact ⟨[], [], .timeless hp hb ht, .close hs c.format rfl⟩
    | some time =>
      cases time with
      | succ time => exact ⟨[], [], .early hp hb ht, .still hs c.format _⟩
      | zero =>
        by_cases hi : l.toHost.home.idle.items = []
        · rw [send_full _ hi]
          exact ⟨[], [], .missed hp hb ht hi, .still hs c.format _⟩
        · have hn : b.count c.packetSamples ≤ c.packetSamples := by
            unfold Burst.count
            split
            · exact Nat.min_le_right _ _
            · exact le_rfl
          have hlen : (b.samples (b.count c.packetSamples)).length = b.count c.packetSamples := by
            simp [Burst.samples]
          have hfit : Header.size + (b.samples (b.count c.packetSamples)).length * c.format.sampleBytes ≤ room := by
            rw [hlen]
            exact le_trans (Nat.add_le_add_left (Nat.mul_le_mul_right _ hn) _) hroom
          obtain ⟨n, lane, he, hst, hpend⟩ :=
            send_data hs (b.header (b.count c.packetSamples) c.sequence) c.format hfit hi
          rw [he]
          exact ⟨[], _, .sent hp hb ht hi, .sent hst hpend _⟩

theorem finish_moves (hs : l.toHost.Stocked room 0 away) {tick : Nat} (hp : c.phase = .finish tick)
    (hroom : Header.size ≤ room) :
    ∃ heard said, Move now c l heard said (c.finish tick l).1 ∧
      Exchange room away c.format (c.finish tick l).1 l heard said (c.finish tick l).2 := by
  unfold finish
  cases hi : l.toHost.home.idle.items with
  | nil =>
    dsimp only
    rw [send_full _ hi]
    dsimp only
    by_cases hc : l.closed = true
    · rw [if_pos hc]
      exact ⟨[], [], .abandoned hp hi hc, .close hs c.format rfl⟩
    · rw [if_neg hc]
      exact ⟨[], [], .stalled hp hi (by simpa using hc), .still hs c.format _⟩
  | cons f fs =>
    have hf := hs.roomy f (by simp [hi])
    obtain ⟨n, lane, he, hst, hpend⟩ := send_packet hs (c.closing tick).header [] hi (by simpa using hroom.trans hf)
    dsimp only
    rw [closing] at he
    dsimp only at he
    rw [he]
    exact ⟨[], [.data (c.closing tick)], .finished hp (by simp [hi]),
      .sent hst (by simpa [Emission.bytes, DataPacket.bytes, closing] using hpend) _⟩

/-- A step of a chain is a move. -/
theorem step_moves (now : Reading) (hs : l.toHost.Stocked room 0 away)
    (hroom : Header.size + c.packetSamples * c.format.sampleBytes ≤ room) :
    ∃ heard said, Move now c l heard said (c.step now l).1 ∧
      Exchange room away c.format (c.step now l).1 l heard said (c.step now l).2 := by
  unfold step
  cases hp : c.phase with
  | listen => exact listen_moves hs hp
  | report => exact reportOverflow_moves hs hp
  | begin => exact beginBurst_moves hs hp
  | produce => exact produce_moves hs hp hroom
  | finish tick => exact finish_moves hs hp (by omega)
  | breakOff tick =>
    obtain ⟨said, lane, he, ht, hst, hpend⟩ := sendStatus_spec hs c.format .brokenChain tick
    dsimp only
    rw [he]
    exact ⟨[], said, .brokeOff hp ht, .sent hst hpend _⟩
  | rest time => exact ⟨[], [], .rested hp, .still hs c.format _⟩
  | stopped => exact ⟨[], [], .stopped hp, .still hs c.format _⟩

end Steps

end ReceiveChain

end Sim

end RadioStream
