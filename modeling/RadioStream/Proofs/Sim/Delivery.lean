import RadioStream.Proofs.Receiver.EndOfBurst
import RadioStream.Proofs.Receiver.Recital
import RadioStream.Proofs.Sim.Carrying
import RadioStream.Proofs.Sim.Hearing
/-!
# A stream reaches the caller whole

Nothing is on its way between a receiver and its chain, and the receiver asks for a number of
samples. The chain carries out this one command or ends with it undone
(`ReceiveLine.Serving`), and the calls read its frames from place to place (`Recited`). Once
all is at rest again the chain has sent all packets and the calls have read them, so the
samples were returned as one burst (`stream_whole`).
-/

namespace RadioStream

/-! ## Packets on the wire -/

/-- A data packet as it is read from the wire. -/
def DataPacket.received (format : WireFormat) (p : DataPacket) : DataPacket where
  header := { p.header with payloadLength := UInt32.ofNat (p.samples.length * format.sampleBytes) }
  samples := p.samples.map format.carried

/-- The lengths of the payloads fit into the headers, so the packets are read as they are. -/
theorem packetsIn_received {format : WireFormat} {ps : List DataPacket}
    (h : ∀ p ∈ ps, p.header.kind = .data ∧ format.PayloadFits p.samples.length) :
    packetsIn format (ps.map fun p => DataPacket.bytes format p.header p.samples) = ps.map (·.received format) := by
  induction ps with
  | nil => rfl
  | cons p ps ih =>
    obtain ⟨⟨hk, hl⟩, hps⟩ := List.forall_mem_cons.1 h
    rw [List.map_cons, packetsIn, List.filterMap_cons_some (DataPacket.ofFrame?_bytes format hk hl), ← packetsIn,
      ih hps]
    rfl

theorem samplesOf_received (format : WireFormat) (ps : List DataPacket) :
    samplesOf (ps.map (·.received format)) = (samplesOf ps).map format.carried := by
  induction ps with
  | nil => rfl
  | cons p ps ih => rw [List.map_cons, samplesOf_cons, samplesOf_cons, List.map_append, ih, DataPacket.received]

/-- A call reports the end of a burst by what it returns. -/
theorem RxCall.endsBurst_eq {S : Type} (c : RxCall S) : c.endsBurst = c.returned.endsBurst := by
  unfold endsBurst RxReturn.endsBurst
  cases c.returned.outcome <;> rfl

namespace Sim

open ReceiveChain

/-! ## A chain that was given one command -/

namespace ReceiveLine

/-- The chain does the job, of which the commands are at the chain or on their way to it. -/
structure Serves (j : Job) (clock : Float) (x : ReceiveLine) (ps : List DataPacket) : Prop where
  carrying : ∃ asked k, Carrying j clock x.chain asked ps k ∧
    asked ++ (x.link.toDevice.pending.filterMap (command? clock)).map order = orders j.counts
  modes : ∀ m ∈ x.chain.modes ++ modesIn clock x.link.toDevice.pending, m = .samplesAndDone

/-- The chain has ended with something left to do. -/
structure Halts (x : ReceiveLine) : Prop where
  stopped : x.chain.phase = .stopped
  undone : x.chain.burst ≠ none ∨ x.link.toDevice.pending ≠ []

section Steps

variable {j : Job} {clock : Float} {x : ReceiveLine} {ps : List DataPacket} {now : Reading} {heard : List Bytes}
  {said : List Emission}

theorem Halts.tick (h : x.Halts) (hm : Move now x.chain x.link heard said (x.tick now).chain)
    (hheard : x.link.toDevice.pending = heard ++ (x.tick now).link.toDevice.pending) : (x.tick now).Halts := by
  obtain ⟨hc, rfl, -⟩ := hm.eq_of_stopped h.stopped
  refine ⟨hc ▸ h.stopped, ?_⟩
  rw [hc, ← show x.link.toDevice.pending = (x.tick now).link.toDevice.pending from hheard]
  exact h.undone

/-- A step in the way of which there is nothing goes on with the job, unless the clock cannot
tell the time left and the chain ends. -/
theorem Serves.tick (h : x.Serves j clock ps) (hopen : x.link.closed = true → x.chain.phase = .stopped)
    (hs : Clear j.tick now x.chain x.link) (hm : Move now x.chain x.link heard said (x.tick now).chain)
    (hheard : x.link.toDevice.pending = heard ++ (x.tick now).link.toDevice.pending) :
    (x.tick now).Halts ∨ ∃ qs, said = qs.map .data ∧ (x.tick now).Serves j clock (ps ++ qs) := by
  obtain ⟨asked, k, hc, hall⟩ := h.carrying
  have hmodes := h.modes
  rw [hheard, List.filterMap_append, List.map_append, ← List.append_assoc] at hall
  rw [hheard, modesIn_append, ← List.append_assoc] at hmodes
  have hclosed : x.link.closed = false := by
    by_contra hn
    have hpos := hc.carries.ready.1
    rw [hopen (by simpa using hn)] at hpos
    exact absurd hpos (Nat.lt_irrefl 0)
  -- the only command is not to be continued
  have hmore : ∀ b ∈ x.chain.burst, b.mode ≠ .samplesAndMore := by
    intro b hb hmode
    have hb' : x.chain.burst = some b := hb
    have hdone := h.modes b.mode (List.mem_append_left _ (by simp [ReceiveChain.modes, hb']))
    rw [hmode] at hdone
    cases hdone
  rcases hc.proceeds False hclosed ⟨hs, fun _ b hb _ hmode => absurd hmode (hmore b hb)⟩ False.elim hm
    (hall ▸ List.prefix_append _ _) with ⟨qs, k', rfl, hc', -⟩ | ⟨hstop, b, hb, -⟩
  · refine .inr ⟨qs, rfl, ⟨_, k', hc', hall⟩, fun m hm' => ?_⟩
    rcases List.mem_append.1 hm' with hm' | hm'
    · have hsub := hm.modes_subset hm'
      rw [hc.rate] at hsub
      exact hmodes m (List.mem_append_left _ hsub)
    · exact hmodes m (List.mem_append_right _ hm')
  · refine .inl ⟨by rw [hstop]; rfl, .inl ?_⟩
    rw [hstop]
    exact Option.ne_none_iff_exists'.2 ⟨b, hb⟩

/-- A chain that rests with all done has sent all packets. -/
theorem Serves.packets (h : x.Serves j clock ps) (hb : x.chain.burst = none) (hc : x.chain.commands = [])
    (hp : x.link.toDevice.pending = []) : ps = j.packets := by
  obtain ⟨asked, k, hcarry, hall⟩ := h.carrying
  rw [hp, List.filterMap_nil, List.map_nil, List.append_nil] at hall
  obtain ⟨k', hk, hzero⟩ := hcarry.carries.idle hb hc
  rw [hzero hall] at hk
  exact hk.finished.2.2

end Steps

/-- What the chain has put on the line since some of its steps, if nothing got in their way:
packets of a job, unless it has ended before. -/
structure Serving (f : WireFormat) (clock : Float) (j : Job) (steps : Nat) (before : List Bytes) (x : ReceiveLine)
    (fs : List Bytes) : Prop where
  format : x.chain.format = f
  since : steps ≤ x.moments.length
  served : (∀ m ∈ x.moments.drop steps, Clear j.tick m.now m.chain m.link) → x.Halts ∨
    ∃ ps, fs = before ++ ps.map (fun p => DataPacket.bytes f p.header p.samples) ∧ x.Serves j clock ps

theorem serving_upheld (f : WireFormat) (clock : Float) (j : Job) (steps : Nat) (before : List Bytes) :
    Upheld (Serving f clock j steps before) where
  host _ h := ⟨h.format, h.since, fun hs => (h.served hs).imp (fun hh => ⟨hh.stopped, hh.undone⟩)
    fun ⟨ps, hfs, hp⟩ => ⟨ps, hfs, hp.carrying, hp.modes⟩⟩
  tick {x now fs heard said} hopen hm hheard h := by
    have hmoments : (x.tick now).moments = x.moments ++ [⟨now, x.chain, x.link⟩] := rfl
    refine ⟨hm.fixed.1.trans h.format, ?_, fun hs => ?_⟩
    · rw [hmoments, List.length_append]
      exact h.since.trans (Nat.le_add_right _ _)
    · rw [hmoments, List.drop_append_of_le_length h.since, List.forall_mem_append, List.forall_mem_singleton] at hs
      rcases h.served hs.1 with hh | ⟨ps, rfl, hp⟩
      · exact .inl (hh.tick hm hheard)
      · rcases hp.tick hopen hs.2 hm hheard with hh | ⟨qs, rfl, hq⟩
        · exact .inl hh
        · refine .inr ⟨ps ++ qs, ?_, hq⟩
          rw [h.format, List.map_append, List.append_assoc, List.map_map]
          rfl

end ReceiveLine

/-! ## One count of samples -/

/-- A job of one count. -/
def Job.single {most n : Nat} (hmost : 0 < most) (hn : 0 < n) (tick : Nat) (sequence : UInt16) : Job :=
  ⟨most, [n], tick, sequence, hmost, n, rfl, hn⟩

section Single

variable {most n tick : Nat} {sequence : UInt16} {format : WireFormat}

theorem Job.packets_single (hmost : 0 < most) (hn : 0 < n) (tick : Nat) (sequence : UInt16) :
    (single hmost hn tick sequence).packets = burstPackets tick true sequence (portions most n) :=
  congrArg (burstPackets tick true sequence) (List.flatMap_singleton (portions most) n)

/-- The time of a packet is that of its tick, of which it tells sixty-four bits. -/
theorem ofTicks_ofNat (tick : Nat) (rate : Float) :
    Instant.ofTicks ((UInt64.ofNat tick).toNat : Int) rate = Instant.ofTicks (tick : Int) rate := by
  have hi : ∀ n : Nat, (UInt64.ofNat n).toInt64 = Int64.ofInt (n : Int) := fun _ => rfl
  apply Instant.ofTicks_congr
  rw [← hi, ← hi, UInt64.ofNat_toNat]

/-- Calls that read the packets of one count return it whole. -/
theorem whole_single {S : Type} [HostSample S] {rate : Float} {ps qs : List DataPacket} {rs : List (RxReturn S)}
    (h : Recited rate (ps ++ qs) ⟨ps.length, 0⟩ rs ⟨(ps ++ qs).length, 0⟩) (hmost : 0 < most) (hn : 0 < n)
    (hqs : qs = (burstPackets tick true sequence (portions most n)).map (·.received format)) :
    Whole ((List.range' tick n).map fun k => format.arrives (ramp k)) (Instant.ofTicks (tick : Int) rate) rs := by
  have hsamples : (samplesOf qs).map (HostSample.ofRaw (σ := S)) =
      (List.range' tick n).map fun k => format.arrives (ramp k) := by
    rw [hqs, samplesOf_received, samplesOf_burstPackets, sum_portions, List.map_map, List.map_map]
    rfl
  have hfirst : ∃ p, qs.head? = some p ∧ p.header.startOfBurst = true ∧ p.header.hasTime = true ∧
      p.header.timestamp = UInt64.ofNat tick := by
    have hne : portions most n ≠ [] := by
      intro hnil
      have hsum := sum_portions most n
      rw [hnil] at hsum
      exact hn.ne hsum
    obtain ⟨m, ms, hm⟩ := List.exists_cons_of_ne_nil hne
    rw [hqs, hm, burstPackets, List.map_cons]
    exact ⟨_, rfl, rfl, rfl, rfl⟩
  obtain ⟨p, hp, hstart, htime, htick⟩ := hfirst
  rw [← hsamples, ← ofTicks_ofNat, ← htick]
  refine h.whole hp hstart htime (fun q hq => ?_) fun k q hq => ?_
  · rw [hqs] at hq
    obtain ⟨p, hp, rfl⟩ := List.mem_map.1 hq
    rw [DataPacket.received, List.length_map]
    exact pos_of_mem_portions hmost hn (length_of_mem_burstPackets hp)
  · rw [hqs, List.getElem?_map, Option.map_eq_some_iff] at hq
    obtain ⟨p, hp, rfl⟩ := hq
    rw [hqs, List.length_map, length_burstPackets]
    exact (flags_burstPackets hp).2

end Single

/-! ## At rest -/

namespace Reception

/-- Nothing is on its way, and nothing is left to do. -/
structure Idle (x : Reception) : Prop extends AtRest x where
  burst : x.line.chain.burst = none
  commands : x.line.chain.commands = []

end Reception

/-- An idle chain to which a command for some samples is on its way serves it, unless it has
ended before. -/
theorem ReceiveLine.Serving.start {f : WireFormat} {clock rate : Float} {most : Nat} (tick : Nat) {x : ReceiveLine}
    {fs : List Bytes} {c : StreamCommand} {lane : Lane} (h : x.Sends f clock most fs) (howed : x.chain.dues = [])
    (hb : x.chain.burst = none) (hcommands : x.chain.commands = []) (hmost : 0 < most) (hn : 0 < c.samples.toNat)
    (hc : c.mode = .samplesAndDone) (hp : lane.pending = [commandBytes c rate]) :
    Serving f clock (.single hmost hn tick x.chain.sequence) x.moments.length fs
      { x with link := { x.link with toDevice := lane } } fs := by
  refine ⟨h.format, Nat.le_refl _, fun _ => ?_⟩
  by_cases hstop : x.chain.phase = .stopped
  · exact .inl ⟨hstop, .inr (by rw [hp]; simp)⟩
  obtain ⟨hcalm, hpressing⟩ := List.append_eq_nil_iff.1 howed
  rw [Option.toList_eq_nil_iff, Option.map_eq_none_iff] at hcalm
  have hlag : 1 < x.chain.phase.lag := by
    have hproduce := h.bursts
    unfold pressing at hpressing
    cases hphase : x.chain.phase <;> simp_all [ReceivePhase.lag]
  have hw := Carries.waiting (j := .single hmost hn tick x.chain.sequence) hb hlag rfl
  rw [hcommands] at hw
  refine .inr ⟨[], by simp, ⟨_, _, ⟨h.samples, h.rate, hcalm, hw⟩, ?_⟩, ?_⟩
  · rw [hp, commandBytes, List.filterMap_cons_some (command?_payload c (kind_header c rate) clock), List.filterMap_nil,
      List.map_singleton, order, hc]
    rfl
  · rw [hp, commandBytes, modesIn_payload c (kind_header c rate), hc]
    simp [ReceiveChain.modes, hb, hcommands]

/-! ## The calls -/

/-- The action is a call for samples, or the chain goes on by itself. -/
def ReceptionAction.Listens {S : Type} : ReceptionAction S → Prop
  | .recv _ count _ _ _ _ => 0 < count
  | .issue _ => False
  | .elapse _ => True

/-- A receiver that is idle stays so while it handles packets. -/
theorem follows_idle (format : WireFormat) : Follows Downlink.terminal format fun state _ _ => state = .idle where
  silence h _ := h
  pass := by
    rintro _ _ _ _ _ rfl - -
    exact (StreamState.meets_idle_or _ _).elim id id
  hold h _ _ := h
  advance _ h := h
  letGo := by
    rintro _ _ _ rfl
    exact (StreamState.meets_idle_or _ _).elim id id

namespace Hearing

variable {S : Type} [HostSample S] {room : Nat} {I : ReceiveLine → List Bytes → Prop}

/-- Since a place in the stream calls have read on from there, and the receiver is idle if one
of them has reported the end of a burst. -/
structure Recites (room : Nat) (hI : ReceiveLine.Upheld I) (f : WireFormat) (rate : Float) (start : Nat)
    (before : List (RxReturn S)) (x : Hearing S) (t : Track) (rs : List (RxReturn S)) : Prop where
  described : Described (lineLedger room hI) x.session [t]
  returns : x.returns = before ++ rs
  recited : Recited rate (packetsIn f t.taken) ⟨start, 0⟩ rs (t.cursor f)
  idle : rs.any RxReturn.endsBurst = true → x.reception.receiver.state = .idle
  format : x.reception.receiver.format = f
  rate : x.reception.receiver.rate = rate

variable {hI : ReceiveLine.Upheld I} {f : WireFormat} {rate : Float} {start : Nat} {before rs : List (RxReturn S)}
  {x : Hearing S} {t : Track}

/-- Once the end of a burst was reported, the receiver is idle. -/
theorem Recites.idle_recv (h : x.Recites room hI f rate start before t rs) (buffers : List (List S)) {count : Nat}
    (wait : Nat) (onePacket : Bool) (md : RxMetadata) (agenda : List (List Reading)) (hcount : 0 < count)
    {y : RxReturn S}
    (hy : (x.step (.recv buffers count wait onePacket md agenda)).returns = x.returns ++ [y])
    (he : (rs ++ [y]).any RxReturn.endsBurst = true) :
    (x.step (.recv buffers count wait onePacket md agenda)).reception.receiver.state = .idle := by
  have hchannels : x.reception.receiver.channels = [t.channel] := h.described.channels
  rw [List.any_append, Bool.or_eq_true] at he
  rcases he with he | he
  · have hf : Follows ((fun _ : Nat => Downlink.terminal) 0) f fun state _ _ => state = .idle := follows_idle f
    have hholds : Follows.Holds f (fun state _ (_ : Downlink) => state = .idle) x.reception.receiver
        { line := x.reception.line, agenda } := ⟨h.format, _, hchannels, h.idle he⟩
    obtain ⟨-, c, -, hidle⟩ : Follows.Holds f _
        (x.reception.receiver.recv (fun _ => Downlink.terminal) buffers count wait onePacket md _).receiver _ :=
      hf.recv buffers count wait onePacket md hholds
    exact hidle
  · -- the call itself reports the end
    have hover : (x.session agenda).Over 1 := ⟨congrArg List.length hchannels, by simp [session, hchannels]⟩
    have hhonest := (hover.recv (fun _ => Downlink.terminal) buffers wait onePacket md hcount).2 _ rfl
    have hy' := List.append_cancel_left hy
    rw [← hy', List.any_cons, List.any_nil, Bool.or_false] at he
    refine hhonest.idle ?_
    rw [RxCall.endsBurst_eq]
    exact he

theorem Recites.recv (h : x.Recites room hI f rate start before t rs) (buffers : List (List S)) {count : Nat}
    (wait : Nat) (onePacket : Bool) (md : RxMetadata) (agenda : List (List Reading)) (hcount : 0 < count) :
    ∃ t' rs', (x.step (.recv buffers count wait onePacket md agenda)).Recites room hI f rate start before t' rs' := by
  obtain ⟨rest, hx⟩ := session_recv x buffers count wait onePacket md agenda
  obtain ⟨t', cut, y, hd, hy, hpre, hread, hchain, hcuts⟩ :=
    (described_agenda h.described agenda).recv_cuts buffers hcount wait onePacket md
  rw [← hx] at hd hy
  have hformat : (x.session agenda).receiver.format = f := h.format
  have hrate : (x.session agenda).receiver.rate = rate := h.rate
  rw [hformat] at hpre hread
  rw [hrate] at hcuts
  have hfixed := (recv_receives (fun _ => Downlink.terminal) x.reception.receiver buffers count wait onePacket md
    { line := x.reception.line, agenda }).format_eq
  refine ⟨t', rs ++ [y], described_agenda hd [], ?_, .concat (h.recited.mono hpre) hread hchain hcuts,
    h.idle_recv buffers wait onePacket md agenda hcount hy, hfixed.1.trans h.format, hfixed.2.trans h.rate⟩
  rw [← List.append_assoc, ← h.returns]
  exact hy

/-- Calls read on, whatever the chain does. -/
theorem Recites.run (h : x.Recites room hI f rate start before t rs) {as : List (ReceptionAction S)}
    (ha : ∀ a ∈ as, a.Listens) : ∃ t' rs', (x.run as).Recites room hI f rate start before t' rs' := by
  induction as generalizing x t rs with
  | nil => exact ⟨t, rs, h⟩
  | cons a as ih =>
    obtain ⟨ha, has⟩ := List.forall_mem_cons.1 ha
    cases a with
    | recv buffers count wait onePacket md agenda =>
      obtain ⟨t', rs', h'⟩ := h.recv buffers wait onePacket md agenda ha
      exact ih h' has
    | issue => exact ha.elim
    | elapse nows =>
      exact ih ⟨described_elapse h.described nows, h.returns, h.recited, h.idle, h.format, h.rate⟩ has

/-- A receiver that holds no packet has come to the end of those taken. -/
theorem cursor_described (h : Described (lineLedger room hI) x.session [t])
    (hheld : x.reception.receiver.leading? = none) (f : WireFormat) :
    t.cursor f = ⟨(packetsIn f t.taken).length, 0⟩ := by
  have hchannels : x.reception.receiver.channels = [t.channel] := h.channels
  rw [Receiver.leading?, hchannels] at hheld
  have hnone : t.channel.held = none := hheld
  rw [Track.cursor, hnone]

omit [HostSample S] in
/-- The steps that the chain took until later. -/
def stepsTo (x y : Hearing S) : List Moment := y.reception.line.moments.drop x.reception.line.moments.length

section Delivery

variable {clock : Float} {most tick : Nat} {c : StreamCommand}

/-- A command for some samples is issued at rest. -/
theorem Untroubled.issued (h : x.Untroubled room f clock rate most) (hidle : x.reception.Idle) (hmost : 0 < most)
    (hc : c.mode = .samplesAndDone) (hn : 0 < c.samples.toNat) (hissue : x.reception.Issues c) :
    ∃ t, (x.step (.issue c)).Recites room
      (ReceiveLine.serving_upheld f clock (.single hmost hn tick x.reception.line.chain.sequence)
        x.reception.line.moments.length t.taken) f rate (packetsIn f t.taken).length x.returns t [] := by
  obtain ⟨t, hd⟩ := h.described
  have hb := described_books hd
  have hall : t.account.taken ++ x.reception.line.link.toHost.pending = t.taken := by
    rw [hidle.taken]
    exact List.append_nil _
  have hsends := hb.holds
  rw [hall] at hsends
  obtain ⟨state, lane, he, hst, hp⟩ := step_issue hd.channels hb.sound.toDevice c
  have hpending := hp hissue
  rw [hidle.handled, List.nil_append] at hpending
  have hserving := ReceiveLine.Serving.start tick hsends hidle.owed hidle.burst hidle.commands hmost hn hc hpending
  rw [he]
  refine ⟨t, described_asked hd hst (hall.symm ▸ hserving), (List.append_nil _).symm, ?_, by simp, h.format, h.rate⟩
  rw [cursor_described hd hidle.held]
  exact .nil

/-- At the next rest all samples of the command have been returned. -/
theorem Untroubled.whole (h : x.Untroubled room f clock rate most) (hidle : x.reception.Idle) (hmost : 0 < most)
    (hc : c.mode = .samplesAndDone) (hn : 0 < c.samples.toNat) (hissue : x.reception.Issues c)
    (hfit : f.PayloadFits (min c.samples.toNat most)) {as : List (ReceptionAction S)}
    (ha : ∀ a ∈ as, a.Listens)
    (hclear : ∀ m ∈ x.stepsTo (x.run (.issue c :: as)), Clear tick m.now m.chain m.link)
    (hend : (x.run (.issue c :: as)).reception.Idle) :
    ∃ rs, (x.run (.issue c :: as)).returns = x.returns ++ rs ∧
      Whole ((List.range' tick c.samples.toNat).map fun k => f.arrives (ramp k))
        (Instant.ofTicks (tick : Int) rate) rs ∧
      (x.run (.issue c :: as)).reception.receiver.state = .idle := by
  obtain ⟨t, ht⟩ := h.issued hidle hmost hc hn hissue
  obtain ⟨t', rs, hz⟩ := ht.run ha
  have hrun : x.run (.issue c :: as) = (x.step (.issue c)).run as := rfl
  rw [hrun] at hclear hend ⊢
  generalize (x.step (.issue c)).run as = z at hz hclear hend ⊢
  have hserving := (described_books hz.described).holds
  rw [hend.taken, List.append_nil] at hserving
  -- what the chain has sent is taken, and it was not left halfway
  have htaken : t'.taken = t.taken ++ (burstPackets tick true x.reception.line.chain.sequence
      (portions most c.samples.toNat)).map fun p => DataPacket.bytes f p.header p.samples := by
    rcases hserving.served hclear with hhalts | ⟨ps, hfs, hserves⟩
    · rcases hhalts.undone with hb | hp
      · exact absurd hend.burst hb
      · exact absurd hend.handled hp
    · rw [hserves.packets hend.burst hend.commands hend.handled, Job.packets_single] at hfs
      exact hfs
  have hlengths : ∀ p ∈ burstPackets tick true x.reception.line.chain.sequence (portions most c.samples.toNat),
      p.header.kind = .data ∧ f.PayloadFits p.samples.length := by
    intro p hp
    have hl := length_of_mem_burstPackets hp
    have hle := le_min (le_count_of_mem_portions hl) (le_of_mem_portions hmost hl)
    exact ⟨kind_of_mem_burstPackets hp, hfit.mono hle⟩
  have hread := hz.recited
  rw [cursor_described hz.described hend.held, htaken, packetsIn_append] at hread
  have hwhole := whole_single hread hmost hn (packetsIn_received hlengths)
  refine ⟨rs, hz.returns, hwhole, hz.idle ?_⟩
  rw [List.any_eq_true, ← List.countP_pos_iff, hwhole.once]
  exact Nat.one_pos

end Delivery

end Hearing

/-- A receiver of one channel and a chain of the same format. Whatever is asked for, however
the chain takes its turns and whatever its clock shows, no call for samples reports a bad
packet, packets out of sequence or channels that do not align.

And if the receiver asks for some samples at rest, and nothing gets in the way of the chain,
which begins at a tick, then at the next rest the calls have returned the samples of the
ticks from there on, as the wire carries them, and nothing more: the first call that returns
any says that they start, at the time of the tick, only the last one says that they end, and
the receiver is idle. For this a header must be able to tell the length of the packets
(`WireFormat.PayloadFits`). -/
theorem stream_whole {S : Type} [HostSample S] {g : Geometry} {l : Link} (hl : Link.new g = .ok l)
    {format : WireFormat} {rate : Float} {most : Nat} {r : Receiver}
    (hr : Receiver.new [g.recvFrameSize] format rate most = .ok r) (clock : Float) (as : List (ReceptionAction S))
    (hask : ∀ a ∈ as, a.Asks) :
    let x : Hearing S := { reception := ⟨r, .fresh format clock most l⟩ }
    let y := x.run as
    (∀ z ∈ y.returns, ∀ n, z.outcome = .ok n → z.metadata.Clean) ∧
      ∀ (c : StreamCommand) (bs : List (ReceptionAction S)) (tick : Nat),
        let z := y.run (.issue c :: bs)
        y.reception.Idle → y.reception.Issues c → c.mode = .samplesAndDone → 0 < c.samples →
        (∀ b ∈ bs, b.Listens) → (∀ m ∈ y.stepsTo z, Clear tick m.now m.chain m.link) → z.reception.Idle →
        format.PayloadFits (min c.samples.toNat most) →
        ∃ rs, z.returns = y.returns ++ rs ∧
          Whole ((List.range' tick c.samples.toNat).map fun k => format.arrives (ramp k))
            (Instant.ofTicks (tick : Int) rate) rs ∧
          z.reception.receiver.state = .idle := by
  intro x y
  have hy := (Hearing.Untroubled.fresh hl hr clock).run hask
  obtain ⟨hmost, -⟩ := Receiver.fits_of_new hr
  refine ⟨hy.clean, ?_⟩
  intro c bs tick z hidle hissue hmode hn hlisten hclear hend hfit
  exact hy.whole hidle hmost hmode (UInt64.lt_iff_toNat_lt.1 hn) hissue hfit hlisten hclear hend

/-- After a stream that was stopped, five samples in packets of two, the first of which two
calls take in parts. -/
theorem stream_whole_after_stop :
    let now : Reading := { elapsed := 1, tick := 1, left? := fun _ => some 0 }
    let steps (n : Nat) : ReceptionAction (Iq Int16) := .elapse (List.replicate n now)
    let recv (n : Nat) : ReceptionAction (Iq Int16) := .recv [List.replicate n ⟨0, 0⟩] n 0 false {} [[now], [now]]
    let c : StreamCommand := .now .samplesAndDone 5
    let as := [.issue (.now .startContinuous 0), steps 6, .issue (.now .stopContinuous 0), steps 4, recv 4, recv 4]
    let bs := [steps 8, recv 1, steps 4, recv 3, recv 4]
    let g : Geometry := { recvFrameSize := 24, sendFrameSize := 28, recvFrames := 4, sendFrames := 2 }
    let r : Receiver := { channels := [{}], format := .sc16, rate := 1, packetSamples := 2 }
    ∃ l, Link.new g = .ok l ∧ Receiver.new [g.recvFrameSize] .sc16 1 2 = .ok r ∧ (∀ a ∈ as, a.Asks) ∧
      let x : Hearing (Iq Int16) := { reception := ⟨r, .fresh .sc16 1 2 l⟩ }
      let y := x.run as
      let z := y.run (.issue c :: bs)
      y.reception.Idle ∧ y.reception.Issues c ∧ (∀ b ∈ bs, b.Listens) ∧
      (∀ m ∈ y.stepsTo z, Clear 2 m.now m.chain m.link) ∧ z.reception.Idle ∧
      z.returns.map (·.outcome.toOption) = [some 4, some 0, some 1, some 3, some 1] ∧
      ∃ rs, z.returns = y.returns ++ rs ∧
        Whole ((List.range' 2 5).map fun k => WireFormat.sc16.arrives (ramp k)) (Instant.ofTicks 2 1) rs ∧
        z.reception.receiver.state = .idle := by
  intro now steps recv c as bs g r
  have hl : ∃ l, Link.new g = .ok l := ⟨_, rfl⟩
  obtain ⟨l, hl⟩ := hl
  have hr : Receiver.new [g.recvFrameSize] .sc16 1 2 = .ok r := rfl
  have hask : ∀ a ∈ as, a.Asks := by simp [as, steps, recv, ReceptionAction.Asks]
  have hlisten : ∀ b ∈ bs, b.Listens := by simp [bs, steps, recv, ReceptionAction.Listens]
  let y : Hearing (Iq Int16) := Hearing.run ⟨⟨r, .fresh .sc16 1 2 l⟩, []⟩ as
  have hidle : y.reception.Idle := by
    cases hl
    exact ⟨⟨by decide +kernel, by decide +kernel, by decide +kernel, by decide +kernel⟩, by decide +kernel,
      by decide +kernel⟩
  have hissue : y.reception.Issues c := by
    cases hl
    decide +kernel
  have hclear : ∀ m ∈ y.stepsTo (y.run (.issue c :: bs)), Clear 2 m.now m.chain m.link := by
    cases hl
    decide +kernel
  have hend : (y.run (.issue c :: bs)).reception.Idle := by
    cases hl
    exact ⟨⟨by decide +kernel, by decide +kernel, by decide +kernel, by decide +kernel⟩, by decide +kernel,
      by decide +kernel⟩
  have houtcomes : (y.run (.issue c :: bs)).returns.map (·.outcome.toOption) =
      [some 4, some 0, some 1, some 3, some 1] := by
    cases hl
    decide +kernel
  have hfit : WireFormat.sc16.PayloadFits (min c.samples.toNat 2) := by decide +kernel
  exact ⟨l, hl, hr, hask, hidle, hissue, hlisten, hclear, hend, houtcomes,
    (stream_whole hl hr 1 as hask).2 c bs 2 hidle hissue rfl (by decide) hlisten hclear hend hfit⟩

end Sim

end RadioStream
