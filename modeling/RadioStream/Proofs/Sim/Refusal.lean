import RadioStream.Proofs.Lists
import RadioStream.Sim.Device
/-!
# Refused transmit streams

A transmit stream that cannot be set up leaves a device as it was. One whose packets would
hold no sample is refused later, when its chains have been started: each of its channels is
then left with a circuit that nobody uses, whose chain ends at its next turn. Words
injected on the channel go to that circuit as long as it goes on and to nobody afterwards,
whatever stream was open on the channel before (`TakenOver`).
-/

namespace RadioStream.Sim

variable {P : Circuit → Prop} {m : Machine} {d : Device} {i j : Nat}

theorem Chain.isStopped_transmit {t : TransmitChain} : (Chain.transmit t).isStopped = true ↔ t.phase = .stopped := by
  obtain ⟨channel, format, stall, injections, expected, inBurst, dropping, lastPacket, alarm, phase⟩ := t
  cases phase <;> simp [Chain.isStopped]

/-! ## Circuits that were given up -/

namespace Circuit

/-- A circuit with its link closed, and a chain that has not done anything since. -/
def GivenUp (c : Circuit) : Prop :=
  c.link.closed = true ∧ ∃ t, c.chain = .transmit t ∧ t.alarm = none ∧ (t.phase = .attend ∨ t.phase = .stopped)

/-- A circuit that was given up and has ended. -/
def Over (c : Circuit) : Prop := c.GivenUp ∧ c.chain.isStopped = true

/-- What stays so at the turns of the chain, when the host takes frames, and when words are
injected. -/
structure Lasting (P : Circuit → Prop) : Prop where
  step : ∀ now c, P c → P (c.step now)
  link : ∀ c l, l.closed = c.link.closed → P c → P { c with link := l }
  inject : ∀ l t since q, P ⟨l, .transmit t, since⟩ → P ⟨l, .transmit { t with injections := q }, since⟩

/-- A chain whose link is closed ends at its next turn. -/
theorem GivenUp.step {c : Circuit} (h : c.GivenUp) (now : Reading) : (c.step now).Over := by
  obtain ⟨link, chain, since⟩ := c
  obtain ⟨hclosed, t, rfl, halarm, hphase⟩ := h
  have hstep : t.step now link = (t.goTo .stopped, link) := by
    unfold TransmitChain.step
    rw [halarm]
    rcases hphase with hp | hp
    · simp [hp, TransmitChain.attend, show link.closed = true from hclosed]
    · have hsame : t.goTo .stopped = t := by rw [TransmitChain.goTo, ← hp]
      rw [hp, hsame]
  have hc : (Circuit.mk link (.transmit t) since).step now = ⟨link, .transmit (t.goTo .stopped), now.elapsed⟩ := by
    simp only [Circuit.step, Chain.step, hstep]
  rw [hc]
  exact ⟨⟨hclosed, _, rfl, halarm, .inr rfl⟩, Chain.isStopped_transmit.2 rfl⟩

theorem lasting_givenUp : Lasting GivenUp where
  step now c h := (h.step now).1
  link c l hl h := ⟨hl.trans h.1, h.2⟩
  inject l t since q := fun ⟨hclosed, t', ht, halarm, hphase⟩ => by
    cases ht
    exact ⟨hclosed, _, rfl, halarm, hphase⟩

theorem lasting_over : Lasting Over where
  step now c h := h.1.step now
  link c l hl h := ⟨lasting_givenUp.link c l hl h.1, h.2⟩
  inject l t since q h := by
    have hp : t.phase = .stopped := Chain.isStopped_transmit.1 h.2
    exact ⟨lasting_givenUp.inject l t since q h.1, Chain.isStopped_transmit.2 hp⟩

end Circuit

open Circuit (Lasting)

namespace Machine

/-- There is a circuit of a number, with a property. -/
def Has (m : Machine) (i : Nat) (P : Circuit → Prop) : Prop := ∃ c, m.circuits[i]? = some c ∧ P c

theorem Has.modify (h : m.Has i P) {f : Circuit → Circuit} (hf : ∀ c, P c → P (f c)) (j : Nat) :
    ({ m with circuits := m.circuits.modify j f } : Machine).Has i P := by
  obtain ⟨c, hc, hP⟩ := h
  refine ⟨if j = i then f c else c, ?_, ?_⟩
  · rw [List.getElem?_modify, hc, Option.map_eq_map, Option.map_some]
  · split
    · exact hf c hP
    · exact hP

theorem Has.withLink (h : m.Has i P) (hP : Lasting P) {l l' : Link} (hl : m.link? j = some l)
    (hc : l'.closed = l.closed) : (m.withLink j l').Has i P := by
  obtain ⟨c, hi, hp⟩ := h
  refine ⟨if j = i then { c with link := l' } else c, ?_, ?_⟩
  · rw [Machine.withLink, List.getElem?_modify, hi, Option.map_eq_map, Option.map_some]
  · split
    next hj =>
      subst hj
      rw [link?, hi, Option.map_some, Option.some.injEq] at hl
      exact hP.link c l' (hl ▸ hc) hp
    next => exact hp

theorem closed_receive (l : Link) (e : End) : (l.receive e).2.closed = l.closed := by cases e <;> rfl

theorem closed_recycle (l : Link) (e : End) (f : Frame) : (l.recycle e f).closed = l.closed := by cases e <;> rfl

theorem Has.take (h : m.Has i P) (hP : Lasting P) (j : Nat) : ((still j).take 0 m).2.Has i P := by
  have hreceive : ((still j).receive 0 m).2.Has i P := by
    simp only [still]
    cases hl : m.link? j with
    | none => exact h
    | some l => exact h.withLink hP hl (closed_receive l .host)
  have hrecycle : ∀ (m : Machine) f, m.Has i P → ((still j).recycle f m).Has i P := by
    intro m f h
    simp only [still]
    cases hl : m.link? j with
    | none => exact h
    | some l => exact h.withLink hP hl (closed_recycle l .host f)
  unfold Terminal.take
  rcases hr : (still j).receive 0 m with ⟨_ | f, m'⟩
  · rw [hr] at hreceive
    exact hreceive
  · rw [hr] at hreceive
    exact hrecycle m' f hreceive

theorem Has.turn (h : m.Has i P) (hP : Lasting P) (p : Party) : (m.turn p).Has i P := by
  cases p with
  | circuit j => exact h.modify (hP.step _) j
  | listener j =>
    rw [Machine.turn]
    cases m.listeners[j]? with
    | none => exact h
    | some l =>
      dsimp only
      unfold Machine.visit
      split
      next => exact h
      next circuit _ =>
        have ht := h.take hP circuit
        unfold EventReader.visit
        rcases hr : (still circuit).take 0 m with ⟨_ | f, m'⟩ <;> rw [hr] at ht <;> exact ht

/-- The turn of a circuit that was given up is its last. -/
theorem Has.over (h : m.Has i Circuit.GivenUp) : (m.turn (.circuit i)).Has i Circuit.Over := by
  obtain ⟨c, hc, hg⟩ := h
  refine ⟨c.step (.ofElapsed m.rate m.now), ?_, hg.step _⟩
  rw [Machine.turn, List.getElem?_modify_eq, hc, Option.map_eq_map, Option.map_some]

end Machine

/-! ## What goes on at a device -/

/-- What happens at a device with its streams open. -/
inductive DeviceAction where
  /-- Somebody takes a turn at a time. -/
  | turn (time : Nat) (p : Party)
  /-- Words are injected for a channel. -/
  | inject (channel : Nat) (words : Words)

namespace Device

def act (d : Device) : DeviceAction → Device
  | .turn time p => { d with machine := ({ d.machine with now := max d.machine.now time } : Machine).turn p }
  | .inject channel words => match d.inject channel words with
    | .ok d => d
    | .error _ => d

def run (d : Device) (as : List DeviceAction) : Device := as.foldl act d

theorem injections_act (d : Device) (a : DeviceAction) : (d.act a).injections = d.injections := by
  cases a with
  | turn time p => rfl
  | inject channel words =>
    rw [act, inject]
    cases d.injectionCircuit? channel <;> rfl

theorem injections_run (d : Device) (as : List DeviceAction) : (d.run as).injections = d.injections := by
  induction as generalizing d with
  | nil => rfl
  | cons a as ih => exact (ih (d.act a)).trans (injections_act d a)

theorem has_act (h : d.machine.Has i P) (hP : Lasting P) (a : DeviceAction) : (d.act a).machine.Has i P := by
  cases a with
  | turn time p => exact Machine.Has.turn (m := { d.machine with now := max d.machine.now time }) h hP p
  | inject channel words =>
    rw [act, inject]
    cases d.injectionCircuit? channel with
    | none => exact h
    | some j =>
      refine h.modify (fun c hc => ?_) j
      obtain ⟨link, chain, since⟩ := c
      cases chain with
      | receive _ => exact hc
      | transmit t => exact hP.inject link t since _ hc

theorem has_run (h : d.machine.Has i P) (hP : Lasting P) (as : List DeviceAction) : (d.run as).machine.Has i P := by
  induction as generalizing d with
  | nil => exact h
  | cons a as ih => exact ih (has_act h hP a)

/-- A circuit that was given up is over once its chain has had a turn. -/
theorem over_of_turn (h : d.machine.Has i Circuit.GivenUp) {as : List DeviceAction} {time : Nat}
    (ha : .turn time (.circuit i) ∈ as) : (d.run as).machine.Has i Circuit.Over := by
  obtain ⟨before, after, rfl⟩ := List.append_of_mem ha
  have hbefore := has_run h Circuit.lasting_givenUp before
  have hturn : ((d.run before).act (.turn time (.circuit i))).machine.Has i Circuit.Over :=
    Machine.Has.over (m := { (d.run before).machine with now := max (d.run before).machine.now time }) hbefore
  rw [run, List.foldl_append]
  exact has_run hturn Circuit.lasting_over after

/-- Words are refused on a channel whose circuit is over. -/
theorem inject_over {channel : Nat} (hl : d.injections.lookup channel = some i) (h : d.machine.Has i Circuit.Over)
    (words : Words) : d.inject channel words = .error (.argument (.noTransmitStream channel)) := by
  obtain ⟨c, hc, -, hstopped⟩ := h
  have hrunning : d.machine.isRunning i = false := by simp [Machine.isRunning, hc, hstopped]
  have hnone : d.injectionCircuit? channel = none := by
    rw [injectionCircuit?, hl, Option.filter_some, hrunning]
    rfl
  rw [inject, hnone]

/-! ## Opening a stream -/

/-- The device with transmit chains started on some channels, each on a link. -/
def started (d : Device) (format : WireFormat) (ps : List (Nat × Link)) : Device where
  address := d.address
  config := d.config
  machine := { d.machine with
    circuits := d.machine.circuits ++ ps.map fun p => ⟨p.2, .transmit (d.transmitChain format p.1), d.machine.now⟩ }
  injections := ((ps.map (·.1)).zip (List.range' d.machine.circuits.length ps.length)).reverse ++ d.injections

theorem foldl_startTransmit (format : WireFormat) (ps : List (Nat × Link)) (is : List Nat) (d : Device) :
    ps.foldl (fun (circuits, d) (channel, link) =>
        let (i, d) := startTransmit format d channel link
        (circuits ++ [i], d)) (is, d) =
      (is ++ List.range' d.machine.circuits.length ps.length, d.started format ps) := by
  induction ps generalizing is d with
  | nil => simp [started]
  | cons p ps ih =>
    rw [List.foldl_cons, ih]
    simp [started, startTransmit, Machine.addCircuit, transmitChain, List.range'_succ]

theorem lookup_started_of_notMem {format : WireFormat} {ps : List (Nat × Link)} {channel : Nat}
    (h : channel ∉ ps.map (·.1)) : (d.started format ps).injections.lookup channel = d.injections.lookup channel := by
  rw [started, List.lookup_append, List.lookup_eq_none_iff.2 fun p hp => ?_, Option.none_or]
  rw [bne_iff_ne]
  rintro rfl
  exact h (List.of_mem_zip (List.mem_reverse.1 hp)).1

theorem lookup_started_of_mem {format : WireFormat} {ps : List (Nat × Link)} {channel : Nat}
    (h : channel ∈ ps.map (·.1)) : ∃ i, (d.started format ps).injections.lookup channel = some i ∧
      d.machine.circuits.length ≤ i ∧ i < d.machine.circuits.length + ps.length := by
  let numbered := (ps.map (·.1)).zip (List.range' d.machine.circuits.length ps.length)
  have hnames : numbered.map (·.1) = ps.map (·.1) := List.map_fst_zip (by simp)
  obtain ⟨p, hp, rfl⟩ := List.mem_map.1 (hnames ▸ h)
  obtain ⟨i, hi⟩ := Option.isSome_iff_exists.1
    (List.lookup_isSome_iff.2 ⟨p, List.mem_reverse.2 hp, beq_self_eq_true p.1⟩)
  obtain ⟨l₁, l₂, hl, -⟩ := List.lookup_eq_some_iff.1 hi
  have hmem : (p.1, i) ∈ numbered := List.mem_reverse.1 (hl ▸ by simp)
  obtain ⟨hle, hlt⟩ := List.mem_range'_1.1 (List.of_mem_zip hmem).2
  exact ⟨i, by rw [started, List.lookup_append, hi, Option.some_or], hle, hlt⟩

end Device

theorem Machine.getElem?_closeAll (is : List Nat) (m : Machine) (j : Nat) :
    (is.foldl closeCircuit m).circuits[j]? =
      m.circuits[j]?.map fun c => if j ∈ is then { c with link := c.link.close } else c := by
  have hclose : ∀ (m : Machine) i, (m.closeCircuit i).circuits[j]? =
      m.circuits[j]?.map fun c => if j = i then { c with link := c.link.close } else c := by
    intro m i
    unfold closeCircuit link?
    cases hi : m.circuits[i]? with
    | none =>
      by_cases hj : j = i
      · subst hj
        simp [hi]
      · simp [hj]
    | some c =>
      simp only [Option.map_some, withLink, List.getElem?_modify, Option.map_eq_map]
      by_cases hj : j = i
      · subst hj
        simp [hi]
      · simp [hj, Ne.symm hj]
  induction is generalizing m with
  | nil => simp
  | cons i is ih =>
    rw [List.foldl_cons, ih, hclose, Option.map_map]
    refine Option.map_congr fun c _ => ?_
    by_cases hj : j = i <;> by_cases hm : j ∈ is <;> simp [hj, hm, Link.close]

theorem Machine.listeners_closeAll (is : List Nat) (m : Machine) :
    (is.foldl closeCircuit m).listeners = m.listeners := by
  induction is generalizing m with
  | nil => rfl
  | cons i is ih =>
    rw [List.foldl_cons, ih]
    unfold closeCircuit
    cases m.link? i <;> rfl

namespace Device

/-- What a transmit stream leaves behind that was refused after its chains were started. -/
structure TakenOver (d : Device) (channels : List Nat) (d' : Device) : Prop where
  address : d'.address = d.address
  config : d'.config = d.config
  listeners : d'.machine.listeners = d.machine.listeners
  /-- The circuits of other streams are as they were, and those that were added are given up. -/
  circuits : ∀ i < d.machine.circuits.length, d'.machine.circuits[i]? = d.machine.circuits[i]?
  added : ∀ i c, d.machine.circuits.length ≤ i → d'.machine.circuits[i]? = some c → c.GivenUp
  others : ∀ channel, channel ∉ channels → d'.injections.lookup channel = d.injections.lookup channel
  /-- Words go to a circuit that was added, and to nobody once its chain has had a turn. -/
  taken : ∀ channel ∈ channels, ∃ i, d.machine.circuits.length ≤ i ∧ d'.injectionCircuit? channel = some i ∧
    ∀ as time words, .turn time (.circuit i) ∈ as →
      (d'.run as).inject channel words = .error (.argument (.noTransmitStream channel))

/-- Chains that were started are given up when their links are closed. -/
theorem takenOver_of_started (d : Device) (format : WireFormat) (ps : List (Nat × Link)) :
    d.TakenOver (ps.map (·.1)) { d.started format ps with
      machine := (List.range' d.machine.circuits.length ps.length).foldl Machine.closeCircuit
        (d.started format ps).machine } := by
  have hold : ∀ i < d.machine.circuits.length, ((List.range' d.machine.circuits.length ps.length).foldl
      Machine.closeCircuit (d.started format ps).machine).circuits[i]? = d.machine.circuits[i]? := by
    intro i hi
    have hnew : i ∉ List.range' d.machine.circuits.length ps.length := by
      rw [List.mem_range'_1]
      omega
    simp only [Machine.getElem?_closeAll, hnew, if_false, Option.map_id', started, List.getElem?_append_left hi]
  have hadded : ∀ i, d.machine.circuits.length ≤ i → i < d.machine.circuits.length + ps.length →
      ((List.range' d.machine.circuits.length ps.length).foldl Machine.closeCircuit
        (d.started format ps).machine).Has i fun c => c.GivenUp ∧ c.chain.isStopped = false := by
    intro i hle hlt
    have hi : i - d.machine.circuits.length < ps.length := by omega
    have hnew : i ∈ List.range' d.machine.circuits.length ps.length := List.mem_range'_1.2 ⟨hle, hlt⟩
    refine ⟨⟨(ps[i - d.machine.circuits.length]).2.close,
      .transmit (d.transmitChain format (ps[i - d.machine.circuits.length]).1), d.machine.now⟩, ?_,
      ⟨rfl, _, rfl, rfl, .inl rfl⟩, rfl⟩
    simp only [Machine.getElem?_closeAll, hnew, if_true, started, List.getElem?_append_right hle, List.getElem?_map,
      List.getElem?_eq_getElem hi, Option.map_some]
  refine ⟨rfl, rfl, Machine.listeners_closeAll _ _, hold, fun i c hle hc => ?_, fun channel hn => ?_,
    fun channel hm => ?_⟩
  · by_cases hlt : i < d.machine.circuits.length + ps.length
    · obtain ⟨c', hc', hg, -⟩ := hadded i hle hlt
      cases hc.symm.trans hc'
      exact hg
    · rw [Machine.getElem?_closeAll, List.getElem?_eq_none (by simp [started]; omega)] at hc
      cases hc
  · have hkept : (d.started format ps).injections.lookup channel = _ := lookup_started_of_notMem hn
    exact hkept
  · obtain ⟨i, hl, hle, hlt⟩ := lookup_started_of_mem hm
    obtain ⟨c, hc, hg, hgoes⟩ := hadded i hle hlt
    refine ⟨i, hle, ?_, fun as time words ha => inject_over ?_ (over_of_turn ⟨c, hc, hg⟩ ha) words⟩
    · rw [injectionCircuit?, hl, Option.filter_some, Machine.isRunning, hc]
      simp [hgoes]
    · rw [injections_run]
      exact hl

theorem openTransmit_eq (d : Device) (a : StreamArgs) : d.openTransmit a = match d.setup a with
    | .error e => (.error e, d)
    | .ok s => match Setup.links s with
      | .error e => (.error e, d)
      | .ok links =>
        let ps := s.channels.zip links
        let circuits := List.range' d.machine.circuits.length ps.length
        let d' := d.started a.format ps
        match Transmitter.new (links.map fun _ => s.geometry.sendFrameSize) a.format d.config.tickRate
            s.packetSamples with
        | .ok transmitter =>
          let (listener, machine) := d'.machine.addListener circuits
          (.ok { transmitter, circuits, listener }, { d' with machine })
        | .error e => (.error e, { d' with machine := circuits.foldl Machine.closeCircuit d'.machine }) := by
  unfold openTransmit
  cases d.setup a with
  | error e => rfl
  | ok s =>
    dsimp only
    cases hl : Setup.links s with
    | error e =>
      simp only [bind, Except.bind, hl]
    | ok links =>
      simp only [bind, Except.bind, pure, Except.pure, hl, foldl_startTransmit, List.nil_append]
      rfl

theorem length_links {s : Setup} {links : List Link} (h : Setup.links s = .ok links) :
    links.length = s.channels.length :=
  (forall₂_of_mapM h).length_eq.symm

theorem channels_of_setup {a : StreamArgs} {s : Setup} (h : d.setup a = .ok s) : s.channels = a.selected := by
  unfold setup at h
  split at h
  next => cases h
  next =>
    obtain ⟨_, -, h⟩ := bind_eq_ok h
    obtain ⟨_, -, h⟩ := bind_eq_ok h
    cases h
    rfl

theorem selected_ne_nil (a : StreamArgs) : a.selected ≠ [] := by
  unfold StreamArgs.selected
  split
  next => exact List.cons_ne_nil 0 []
  next h => simpa using h

/-- A transmitter over equal frames is refused if its packets would hold no sample. -/
theorem refused_of_new {links : List Link} {frame most : Nat} {format : WireFormat} {rate : Float} {e : Error}
    (hl : links ≠ []) (h : Transmitter.new (links.map fun _ => frame) format rate most = .error e) :
    min most ((frame - Header.size) / format.sampleBytes) = 0 ∧ e = .argument (.sendFrameTooSmall frame format) := by
  rw [Transmitter.new, List.map_const', List.min?_replicate_of_pos (List.length_pos_iff.2 hl)] at h
  dsimp only at h
  split at h
  next hzero =>
    cases h
    exact ⟨hzero, rfl⟩
  next => cases h

/-- A refused transmit stream leaves the device as it was exactly if it cannot be set up.
If its packets would hold no sample, it takes over its channels. -/
theorem openTransmit_refused {d d' : Device} {a : StreamArgs} {e : Error} (h : d.openTransmit a = (.error e, d')) :
    (d' = d ∧ (d.setup a = .error e ∨ ∃ s, d.setup a = .ok s ∧ Setup.links s = .error e)) ∨
      ∃ s links, d.setup a = .ok s ∧ Setup.links s = .ok links ∧
        min s.packetSamples ((s.geometry.sendFrameSize - Header.size) / a.format.sampleBytes) = 0 ∧
        e = .argument (.sendFrameTooSmall s.geometry.sendFrameSize a.format) ∧ d.TakenOver a.selected d' := by
  rw [openTransmit_eq] at h
  split at h
  next hs =>
    cases h
    exact .inl ⟨rfl, .inl hs⟩
  next s hs =>
    split at h
    next hl =>
      cases h
      exact .inl ⟨rfl, .inr ⟨s, hs, hl⟩⟩
    next links hl =>
      have hlength := length_links hl
      have hchannels := channels_of_setup hs
      have hne : links ≠ [] := fun hn => selected_ne_nil a (by
        rw [← hchannels, ← List.length_eq_zero_iff, ← hlength, hn, List.length_nil])
      dsimp only at h
      split at h
      next => cases h
      next hnew =>
        cases h
        obtain ⟨hzero, he⟩ := refused_of_new hne hnew
        have htaken := takenOver_of_started d a.format (s.channels.zip links)
        rw [List.map_fst_zip (Nat.le_of_eq hlength.symm), hchannels] at htaken
        rw [hchannels]
        exact .inr ⟨s, links, hs, hl, hzero, he, htaken⟩

/-- With a stream open on channel zero, another one is asked for whose frames have room for
no sample. -/
theorem openTransmit_refused_second :
    let first : Device :=
      { address := {}, config := { geometry := ⟨24, 24, 1, 1⟩ }, machine := .new 1e6 0 }
    let d := (first.openTransmit {}).2
    let a : StreamArgs := { args := .ofPairs [("send_frame_size", "16")] }
    d.injectionCircuit? 0 = some 0 ∧ ∃ e d', d.openTransmit a = (.error e, d') ∧ d'.injectionCircuit? 0 = some 1 ∧
      ((d' = d ∧ (d.setup a = .error e ∨ ∃ s, d.setup a = .ok s ∧ Setup.links s = .error e)) ∨
        ∃ s links, d.setup a = .ok s ∧ Setup.links s = .ok links ∧
          min s.packetSamples ((s.geometry.sendFrameSize - Header.size) / a.format.sampleBytes) = 0 ∧
          e = .argument (.sendFrameTooSmall s.geometry.sendFrameSize a.format) ∧ d.TakenOver a.selected d') := by
  refine ⟨by rfl, .argument (.sendFrameTooSmall 16 .sc16), _, Prod.ext (by rfl) rfl, by rfl, ?_⟩
  exact openTransmit_refused (Prod.ext (by rfl) rfl)

end Device

end RadioStream.Sim
