import RadioStream.Proofs.Loopback.Session
import RadioStream.Proofs.Sim.Mirror
/-!
# What a receiver hears of its chain

The frames that a receiver took from its line and those that wait for it are all that the
chain put there, in its order. So what the moves of a chain keep of all that it sent
(`ReceiveLine.Upheld`) is known of the frames that come in, and `lineLedger` brings it to the
tracks of the receiver.

A chain numbers its packets one after the other, and each of its frames can be read.
`Hearing.Untroubled.run` draws from this that no call ever reports a bad packet, packets out
of sequence or channels that do not align.
-/

namespace RadioStream

/-! ## Frames without fault -/

/-- What comes in can be read, and it is no report that something is wrong with the stream. -/
def Incoming.Plain : Incoming → Prop
  | .data .. => True
  | .status code _ => code ≠ .badPacket ∧ code ≠ .alignment
  | .malformed => False

/-- The data packets are numbered one after the other, and nothing is wrong with a frame. -/
structure Flawless (format : WireFormat) (fs : List Bytes) : Prop where
  consecutive : Consecutive (packetsIn format fs)
  plain : ∀ f ∈ fs, (Incoming.ofFrame format f).Plain

/-- Whatever call reports the condition, it does not speak of a broken stream. -/
def Condition.Clean (c : Condition) : Prop :=
  ∀ (rate : Float) (md : RxMetadata), (c.report rate md.reset).Clean

section Frames

variable {format : WireFormat} {fs gs : List Bytes}

theorem Flawless.nil : Flawless format [] := ⟨List.IsChain.nil, by simp⟩

theorem Flawless.mono (h : Flawless format gs) (hp : fs <+: gs) : Flawless format fs where
  consecutive := h.consecutive.mono (packetsIn_mono format hp)
  plain f hf := h.plain f (hp.subset hf)

/-- A packet that has the next number can follow. -/
theorem Flawless.packet (h : Flawless format fs) {f : Bytes} {g : Header} {n : Nat}
    (hi : Incoming.ofFrame format f = .data g n)
    (hnext : ∀ p ∈ (packetsIn format fs).getLast?, g.sequence = p.header.sequence + 1) :
    Flawless format (fs ++ [f]) ∧ ∀ p ∈ (packetsIn format (fs ++ [f])).getLast?, p.header.sequence = g.sequence := by
  obtain ⟨xs, hp, -⟩ := Incoming.ofFrame_eq_data_iff.1 hi
  have hps : packetsIn format (fs ++ [f]) = packetsIn format fs ++ [⟨g, xs⟩] := by
    rw [packetsIn_append, packetsIn, packetsIn, List.filterMap_cons_some hp, List.filterMap_nil]
  refine ⟨⟨?_, List.forall_mem_append.2 ⟨h.plain, by simp [hi, Incoming.Plain]⟩⟩, ?_⟩
  · rw [hps]
    refine h.consecutive.append (List.IsChain.singleton _) fun p hp q hq => ?_
    cases hq
    exact hnext p hp
  · rw [hps, List.getLast?_concat]
    rintro p ⟨⟩
    rfl

/-- So can a report of the device that leaves the stream whole. -/
theorem Flawless.status (h : Flawless format fs) {f : Bytes} {code : RxCode} {tick : Option UInt64}
    (hi : Incoming.ofFrame format f = .status code tick) (hc : code ≠ .badPacket ∧ code ≠ .alignment) :
    Flawless format (fs ++ [f]) ∧ packetsIn format (fs ++ [f]) = packetsIn format fs := by
  have hps : packetsIn format (fs ++ [f]) = packetsIn format fs := by
    have hnone : DataPacket.ofFrame? format f = none := DataPacket.ofFrame?_eq_none (by simp [hi])
    rw [packetsIn_append, packetsIn, packetsIn, List.filterMap_cons_none hnone, List.filterMap_nil, List.append_nil]
  refine ⟨⟨hps ▸ h.consecutive, List.forall_mem_append.2 ⟨h.plain, ?_⟩⟩, hps⟩
  simpa [hi, Incoming.Plain] using hc

/-- What a channel meets is clean if its frames are without fault. -/
theorem Fetched.clean {t t' : Track} {c : Condition} (hf : Fetched format t (some c) t') (hs : t.Sound format)
    (h : Flawless format t'.taken) : c.Clean := by
  generalize hk : some c = k at hf
  cases hf with
  | kept => cases hk
  | silence =>
    cases hk
    exact RxMetadata.clean_silence
  | malformed _ _ hi =>
    have hp := h.plain _ List.mem_concat_self
    rw [hi] at hp
    exact hp.elim
  | @status _ code tick _ _ hi =>
    have hp := h.plain _ List.mem_concat_self
    rw [hi] at hp
    cases hk
    intro rate md
    cases tick <;> exact ⟨hp.1, hp.2, rfl⟩
  | data _ _ hi =>
    rw [if_pos (hs.expects hi h.consecutive)] at hk
    cases hk

/-- One channel whose frames are without fault meets nothing but what is clean. -/
theorem flawless_invariant (format : WireFormat) :
    Invariant format (Flawless format) (fun ts => ∃ t, ts = [t] ∧ t.Sound format) Condition.Clean where
  closed hp h := h.mono hp
  step := by
    rintro ts k ts' hs hP ⟨t, rfl, ht⟩
    cases hs.fetched_of_even fun _ => ⟨t.tick?, by simp⟩ with
    | stop hf =>
      refine ⟨⟨_, rfl, hf.sound ht⟩, fun c hc => ?_⟩
      cases hc
      exact hf.clean ht (hP _ List.mem_cons_self)
    | next hf hr =>
      cases hr
      exact ⟨⟨_, rfl, hf.sound ht⟩, by simp⟩
  advance := by
    rintro ts n - hroom - ⟨t, rfl, ht⟩
    exact ⟨_, rfl, ht.advance (hroom t List.mem_cons_self)⟩

end Frames

namespace Sim

open ReceiveChain

/-! ## Lines -/

namespace ReceiveLine

/-- The frames of a line are where they belong, but for those of the host that are away. -/
structure Sound (room : Nat) (away : List Frame) (x : ReceiveLine) : Prop where
  roomy : Header.size + x.chain.packetSamples * x.chain.format.sampleBytes ≤ room
  toHost : x.link.toHost.Stocked room 0 away
  toDevice : x.link.toDevice.Stocked 0 0 []
  isOpen : x.link.closed = true → x.chain.phase = .stopped

/-- A property of a line and of all that was put on it for the host, which every move of the
chain keeps. What the host takes has no bearing on it. -/
structure Upheld (I : ReceiveLine → List Bytes → Prop) : Prop where
  tick : ∀ {x : ReceiveLine} {now : Reading} {fs heard : List Bytes} {said : List Emission},
    (x.link.closed = true → x.chain.phase = .stopped) → Move now x.chain x.link heard said (x.tick now).chain →
    x.link.toDevice.pending = heard ++ (x.tick now).link.toDevice.pending → I x fs →
    I (x.tick now) (fs ++ said.map (Emission.bytes x.chain.format))
  host : ∀ {x : ReceiveLine} {fs : List Bytes} (lane : Lane), I x fs →
    I { x with link := { x.link with toHost := lane } } fs

/-- The account of a line: the frames taken from it and those that wait have the property. -/
structure Books (room : Nat) (I : ReceiveLine → List Bytes → Prop) (a : Account) (x : ReceiveLine) : Prop where
  sound : x.Sound room a.out.toList
  sent : a.sent = none
  holds : I x (a.taken ++ x.link.toHost.pending)

variable {room : Nat} {away : List Frame} {I : ReceiveLine → List Bytes → Prop} {a : Account} {x : ReceiveLine}

/-- The chain takes a step, which is one of its moves. -/
theorem Sound.tick (h : x.Sound room away) (now : Reading) :
    (x.tick now).Sound room away ∧ ∃ heard said, Move now x.chain x.link heard said (x.tick now).chain ∧
      x.link.toDevice.pending = heard ++ (x.tick now).link.toDevice.pending ∧
      (x.tick now).link.toHost.pending = x.link.toHost.pending ++ said.map (Emission.bytes x.chain.format) := by
  obtain ⟨heard, said, hm, hx⟩ := step_moves now h.toHost h.roomy
  obtain ⟨hformat, -, hsamples⟩ := hm.fixed
  refine ⟨⟨?_, hx.stocked, hx.device h.toDevice, hm.isOpen hx h.isOpen⟩, heard, said, hm, hx.heard, hx.said⟩
  show Header.size + (x.chain.step now x.link).1.packetSamples *
    (x.chain.step now x.link).1.format.sampleBytes ≤ room
  rw [hformat, hsamples]
  exact h.roomy

namespace Books

theorem tick (hI : Upheld I) (h : x.Books room I a) (now : Reading) : (x.tick now).Books room I a := by
  obtain ⟨hs, heard, said, hm, hheard, hsaid⟩ := h.sound.tick now
  refine ⟨hs, h.sent, ?_⟩
  rw [hsaid, ← List.append_assoc]
  exact hI.tick h.sound.isOpen hm hheard h.holds

theorem ticks (hI : Upheld I) (h : x.Books room I a) (nows : List Reading) : (x.ticks nows).Books room I a := by
  induction nows generalizing x with
  | nil => exact h
  | cons now nows ih => exact ih (h.tick hI now)

theorem elapse (hI : Upheld I) {d : Downlink} (h : d.line.Books room I a) : d.elapse.line.Books room I a := by
  unfold Downlink.elapse
  split
  · exact h
  · exact h.ticks hI _

/-- The receiver takes a frame. -/
theorem receive (hI : Upheld I) (h : x.Books room I a) (ho : a.out = none) {f : Frame} {lane : Lane}
    (hr : x.link.toHost.receive = (some f, lane)) :
    { x with link := { x.link with toHost := lane } }.Books room I (a.receive f) := by
  have hp : x.link.toHost.pending = f.payload :: lane.pending := by
    rw [Lane.pending, (Lane.receive_some hr).1]
    rfl
  have hst := h.sound.toHost.receive hr
  have hi := hI.host lane h.holds
  rw [ho] at hst
  rw [hp, List.append_cons] at hi
  exact ⟨⟨h.sound.roomy, hst, h.sound.toDevice, h.sound.isOpen⟩, h.sent, hi⟩

/-- It lets the frame go. -/
theorem recycle (hI : Upheld I) (h : x.Books room I a) {f : Frame} (ho : a.out = some f) :
    { x with link := { x.link with toHost := x.link.toHost.recycle f } }.Books room I a.settle := by
  have hs : x.link.toHost.Stocked room 0 ([] ++ f :: []) := by
    have hst := h.sound.toHost
    rw [ho] at hst
    exact hst
  obtain ⟨hf, hst⟩ := hs.give
  exact ⟨⟨h.sound.roomy, hst.recycle hf, h.sound.toDevice, h.sound.isOpen⟩, h.sent, hI.host _ h.holds⟩

end Books

theorem Sound.fresh {g : Geometry} {l : Link} (hl : Link.new g = .ok l) {format : WireFormat} (rate : Float)
    {most : Nat} (hfit : Header.size + most * format.sampleBytes ≤ g.recvFrameSize) :
    (fresh format rate most l).Sound g.recvFrameSize [] := by
  have hhost := Link.lane_of_new hl .host
  have hdevice := Link.lane_of_new hl .device
  refine ⟨hfit, .of_new hhost (Lane.frameSize_of_new hhost).ge, .of_new hdevice (Nat.zero_le _), fun hc => ?_⟩
  cases (Link.isOpen_of_new hl).symm.trans hc

end ReceiveLine

/-- The books of the line that a receiver has. -/
def lineLedger (room : Nat) {I : ReceiveLine → List Bytes → Prop} (hI : ReceiveLine.Upheld I) :
    Ledger fun _ : Nat => Downlink.terminal where
  Tells as d := ∃ a, as = [a] ∧ d.line.Books room I a
  receive_some {before after a wait d d' f} hT ho hr := by
    obtain ⟨b, hb, h⟩ := hT
    obtain ⟨rfl, rfl, rfl⟩ := eq_of_append_cons_eq_singleton hb
    have he := h.elapse hI
    rw [Downlink.receive_terminal] at hr
    rcases hl : d.elapse.line.link.toHost.receive with ⟨_ | g, lane⟩ <;> rw [hl] at hr <;> cases hr
    exact ⟨by simp [Account.Admits, h.sent], _, rfl, he.receive hI ho hl⟩
  receive_none {before after a wait d d'} hT hr := by
    obtain ⟨b, hb, h⟩ := hT
    obtain ⟨rfl, rfl, rfl⟩ := eq_of_append_cons_eq_singleton hb
    have he := h.elapse hI
    rw [Downlink.receive_terminal] at hr
    rcases hl : d.elapse.line.link.toHost.receive with ⟨_ | g, lane⟩ <;> rw [hl] at hr <;> cases hr
    obtain ⟨-, rfl⟩ := Lane.receive_none hl
    exact ⟨by simp [Account.Spent, h.sent], a, rfl, he⟩
  recycle {before after a d f} hT ho := by
    obtain ⟨b, hb, h⟩ := hT
    obtain ⟨rfl, rfl, rfl⟩ := eq_of_append_cons_eq_singleton hb
    exact ⟨_, rfl, (h.elapse hI).recycle hI ho⟩
  backlog {before after a d} hT fs hfs := by
    obtain ⟨b, hb, h⟩ := hT
    obtain ⟨rfl, rfl, rfl⟩ := eq_of_append_cons_eq_singleton hb
    rw [h.sent] at hfs
    cases hfs

/-! ## What a chain sends -/

namespace ReceiveChain

/-- A chain sends a packet with its next number or reports an overflow, a late command or a
broken chain. -/
theorem Move.says {now : Reading} {c c' : ReceiveChain} {l : Link} {heard : List Bytes} {said : List Emission}
    (h : Move now c l heard said c') :
    (∃ p, said = [.data p] ∧ p.header.kind = .data ∧ p.header.sequence = c.sequence ∧
        c'.sequence = c.sequence + 1) ∨
      c'.sequence = c.sequence ∧ (said = [] ∨
        ∃ code tick, said = [.status code tick] ∧ code ≠ .badPacket ∧ code ≠ .alignment) := by
  cases h with
  | sent => exact .inl ⟨_, rfl, rfl, rfl, (c.advanced_keeps _ _).2.2.2.2⟩
  | finished => exact .inl ⟨_, rfl, rfl, rfl, rfl⟩
  | heard => exact .inr ⟨(c.handle_keeps _).2.2.2.1, .inl rfl⟩
  | begin => exact .inr ⟨(start_keeps _ _ _).2.2.2.1, .inl rfl⟩
  | missed => exact .inr ⟨(c.overflowed_keeps _ _).2.2.2, .inl rfl⟩
  | reported => exact .inr ⟨rfl, .inr ⟨_, _, rfl, nofun, nofun⟩⟩
  | late _ _ _ _ ht | brokeOff _ ht =>
    cases ht with
    | out => exact .inr ⟨rfl, .inr ⟨_, _, rfl, nofun, nofun⟩⟩
    | lost => exact .inr ⟨rfl, .inl rfl⟩
  | _ => exact .inr ⟨rfl, .inl rfl⟩

/-- It turns to send a packet only of a burst. -/
theorem Move.bursts {now : Reading} {c c' : ReceiveChain} {l : Link} {heard : List Bytes} {said : List Emission}
    (h : Move now c l heard said c') (hp : c'.phase = .produce) : c'.burst ≠ none := by
  cases h with
  | goOn _ hb => simp [goTo, hb]
  | begin =>
    unfold start at hp ⊢
    split at hp
    · unfold goTo at hp
      split at hp <;> cases hp
    · next hz => simp [hz]
  | @heard _ command =>
    rcases c.phase_handle command with hl | ⟨-, b, -, hf⟩
    · cases hl.symm.trans hp
    · cases hf.symm.trans hp
  | @sent b =>
    rcases c.phase_advanced b (b.count c.packetSamples) with hl | ⟨tick, hf⟩
    · cases hl.symm.trans hp
    · cases hf.symm.trans hp
  | missed =>
    unfold overflowed at hp
    dsimp only at hp
    split at hp <;> cases hp
  | unreported =>
    unfold goTo at hp
    dsimp only at hp
    split at hp <;> cases hp
  | stalled hf | stopped hf => cases hf.symm.trans hp
  | _ => cases hp

end ReceiveChain

namespace ReceiveLine

/-- A chain with its settings, all that it has sent, which is without fault, and the number
that follows on it. -/
structure Sends (format : WireFormat) (clock : Float) (most : Nat) (x : ReceiveLine) (fs : List Bytes) : Prop where
  flawless : Flawless format fs
  next : ∀ p ∈ (packetsIn format fs).getLast?, x.chain.sequence = p.header.sequence + 1
  bursts : x.chain.phase = .produce → x.chain.burst ≠ none
  rate : x.chain.rate = clock
  samples : x.chain.packetSamples = most
  format : x.chain.format = format

theorem sends_upheld (format : WireFormat) (clock : Float) (most : Nat) : Upheld (Sends format clock most) where
  host _ h := ⟨h.flawless, h.next, h.bursts, h.rate, h.samples, h.format⟩
  tick {x now fs heard said} _ hm _ h := by
    obtain ⟨hformat, hrate, hsamples⟩ := hm.fixed
    have hsent : Flawless format (fs ++ said.map (Emission.bytes x.chain.format)) ∧
        ∀ p ∈ (packetsIn format (fs ++ said.map (Emission.bytes x.chain.format))).getLast?,
          (x.tick now).chain.sequence = p.header.sequence + 1 := by
      rw [h.format]
      rcases hm.says with ⟨p, rfl, hk, hp, hn⟩ | ⟨hn, rfl | ⟨code, tick, rfl, hcode⟩⟩
      · obtain ⟨n, hi⟩ := Incoming.ofFrame_bytes format p.samples hk
        obtain ⟨hf, hlast⟩ := h.flawless.packet hi fun q hq => hp.trans (h.next q hq)
        refine ⟨hf, fun q hq => ?_⟩
        rw [hn, hlast q hq, ← hp]
      · rw [List.map_nil, List.append_nil, hn]
        exact ⟨h.flawless, h.next⟩
      · obtain ⟨hf, hps⟩ := h.flawless.status (ofFrame_statusBytes format code tick) hcode
        refine ⟨hf, fun q hq => hn.trans (h.next q ?_)⟩
        rw [← hps]
        exact hq
    exact ⟨hsent.1, hsent.2, hm.bursts, hrate.trans h.rate, hsamples.trans h.samples, hformat.trans h.format⟩

end ReceiveLine

/-! ## Hearings -/

/-- The receiver issues the command without an error. -/
def Reception.Issues (x : Reception) (c : StreamCommand) : Prop :=
  (x.receiver.issue (fun _ => Downlink.terminal) c { line := x.line }).1.isOk = true

instance (x : Reception) (c : StreamCommand) : Decidable (x.Issues c) :=
  inferInstanceAs (Decidable (_ = true))

/-- A reception with what the calls of the receiver have returned. -/
structure Hearing (S : Type) where
  reception : Reception
  returns : List (RxReturn S) := []

/-- The action is not a call for no samples. -/
def ReceptionAction.Asks {S : Type} : ReceptionAction S → Prop
  | .recv _ count _ _ _ _ => 0 < count
  | .issue _ | .elapse _ => True

namespace Hearing

variable {S : Type} [HostSample S]

def step (x : Hearing S) (a : ReceptionAction S) : Hearing S where
  reception := x.reception.step a
  returns := match a with
    | .recv buffers count wait onePacket md agenda =>
      let y := x.reception.receiver.recv (fun _ => Downlink.terminal) buffers count wait onePacket md
        { line := x.reception.line, agenda }
      x.returns ++ [⟨y.outcome, y.buffers, y.metadata⟩]
    | .issue _ | .elapse _ => x.returns

def run (x : Hearing S) (as : List (ReceptionAction S)) : Hearing S := as.foldl step x

omit [HostSample S] in
/-- The session of the receiver, with steps of the chain to come. -/
def session (x : Hearing S) (agenda : List (List Reading) := []) : RxSession S Downlink :=
  ⟨x.reception.receiver, { line := x.reception.line, agenda }, x.returns⟩

/-- A call is one of the session. -/
theorem session_recv (x : Hearing S) (buffers : List (List S)) (count wait : Nat) (onePacket : Bool) (md : RxMetadata)
    (agenda : List (List Reading)) :
    ∃ rest, (x.step (.recv buffers count wait onePacket md agenda)).session rest =
      (x.session agenda).step (fun _ => Downlink.terminal) (.recv buffers count wait onePacket md) :=
  ⟨_, rfl⟩

variable {room : Nat} {I : ReceiveLine → List Bytes → Prop} {hI : ReceiveLine.Upheld I} {x : Hearing S} {t : Track}

/-- What is still to happen is not in the books. -/
theorem described_agenda {agenda : List (List Reading)} (h : Described (lineLedger room hI) (x.session agenda) [t])
    (agenda' : List (List Reading)) : Described (lineLedger room hI) (x.session agenda') [t] where
  __ := h

theorem described_books (h : Described (lineLedger room hI) x.session [t]) :
    x.reception.line.Books room I t.account := by
  obtain ⟨a, ha, hb⟩ := h.tells
  obtain rfl := (List.cons.inj ha).1
  exact hb

/-- The chain takes some steps between two calls. -/
theorem described_elapse (h : Described (lineLedger room hI) x.session [t]) (nows : List Reading) :
    Described (lineLedger room hI) (x.step (.elapse nows)).session [t] where
  __ := h
  tells := ⟨_, rfl, (described_books h).ticks hI nows⟩

/-! ## Commands -/

omit [HostSample S] in
/-- The same hearing with the receiver in another state and something else on its way to the
chain. -/
def asked (x : Hearing S) (state : StreamState) (lane : Lane) : Hearing S where
  reception :=
    { receiver := { x.reception.receiver with state }
      line := { x.reception.line with link := { x.reception.line.link with toDevice := lane } } }
  returns := x.returns

/-- A command that is issued is on its way to the chain. -/
theorem step_issue {ch : RxChannel} (hchannels : x.reception.receiver.channels = [ch])
    (hs : x.reception.line.link.toDevice.Stocked 0 0 []) (c : StreamCommand) :
    ∃ state lane, x.step (.issue c) = x.asked state lane ∧ lane.Stocked 0 0 [] ∧
      (x.reception.Issues c → lane.pending =
        x.reception.line.link.toDevice.pending ++ [commandBytes c x.reception.receiver.rate]) := by
  obtain ⟨res, r', lane, he, hst, hr⟩ := issue_posts hchannels c hs
  have hstep : x.step (.issue c) = { x with reception := ⟨r',
      { x.reception.line with link := { x.reception.line.link with toDevice := lane } }⟩ } := by
    rw [step, Reception.step, he]
  rw [Reception.Issues, he]
  rcases hr with ⟨-, rfl, hp⟩ | ⟨⟨e, rfl⟩, rfl, -⟩
  · exact ⟨_, lane, hstep, hst, fun _ => hp⟩
  · exact ⟨x.reception.receiver.state, lane, hstep, hst, fun h => by cases h⟩

/-- What the receiver has asked for is no part of what was taken. -/
theorem described_asked {I' : ReceiveLine → List Bytes → Prop} {hI' : ReceiveLine.Upheld I'}
    (h : Described (lineLedger room hI) x.session [t]) {state : StreamState} {lane : Lane} (hst : lane.Stocked 0 0 [])
    (hi : I' (x.asked state lane).reception.line (t.taken ++ x.reception.line.link.toHost.pending)) :
    Described (lineLedger room hI') (x.asked state lane).session [t] where
  __ := h
  tells :=
    have hb := described_books h
    ⟨_, rfl, ⟨hb.sound.roomy, hb.sound.toHost, hst, hb.sound.isOpen⟩, hb.sent, hi⟩

/-! ## Calls report no broken stream -/

/-- A hearing in which no call has reported a broken stream, and none will. -/
structure Untroubled (room : Nat) (format : WireFormat) (clock rate : Float) (most : Nat) (x : Hearing S) : Prop where
  described : ∃ t, Described (lineLedger room (ReceiveLine.sends_upheld format clock most)) x.session [t]
  format : x.reception.receiver.format = format
  rate : x.reception.receiver.rate = rate
  kept : ∀ c ∈ x.reception.receiver.deferred, c.Clean
  clean : ∀ y ∈ x.returns, ∀ n, y.outcome = .ok n → y.metadata.Clean

namespace Untroubled

variable {format : WireFormat} {clock rate : Float} {most : Nat}

theorem fresh {g : Geometry} {l : Link} (hl : Link.new g = .ok l) {r : Receiver}
    (hr : Receiver.new [g.recvFrameSize] format rate most = .ok r) (clock : Float) :
    Untroubled g.recvFrameSize format clock rate most (S := S) { reception := ⟨r, .fresh format clock most l⟩ } := by
  obtain ⟨-, hfit⟩ := Receiver.fits_of_new hr
  obtain ⟨-, rfl⟩ := Receiver.eq_of_new hr
  have hs : (ReceiveLine.fresh format clock most l).Sound g.recvFrameSize [] :=
    .fresh hl clock (hfit _ List.mem_cons_self)
  have hpending : l.toHost.pending = [] := Lane.pending_of_new (Link.lane_of_new hl .host)
  refine ⟨⟨{}, rfl, by simp, by simp [Track.sound_blank], by simp, ⟨_, rfl, hs, rfl, ?_⟩, fun i u hu => ?_⟩, rfl, rfl,
    by simp, by simp⟩
  · show ReceiveLine.Sends format clock most (.fresh format clock most l) ([] ++ l.toHost.pending)
    rw [hpending]
    exact ⟨.nil, by simp [packetsIn], nofun, rfl, rfl, rfl⟩
  · obtain rfl := List.mem_singleton.1 (List.mem_of_getElem? hu)
    rfl

/-- A call for samples reports no broken stream. -/
theorem recv (h : Untroubled room format clock rate most x) (buffers : List (List S)) {count : Nat} (wait : Nat)
    (onePacket : Bool) (md : RxMetadata) (agenda : List (List Reading)) (hcount : 0 < count) :
    Untroubled room format clock rate most (x.step (.recv buffers count wait onePacket md agenda)) := by
  obtain ⟨t, hd⟩ := h.described
  obtain ⟨rest, hx⟩ := session_recv x buffers count wait onePacket md agenda
  have hd' := described_agenda hd agenda
  rcases hd'.recv buffers count wait onePacket md with ⟨e, he⟩ | ⟨rep, ts', st, s', y, he, hC, hr, hy, hT⟩
  · rw [he] at hx
    have hreceiver : (x.step (.recv buffers count wait onePacket md agenda)).reception.receiver =
        x.reception.receiver := congrArg RxSession.receiver hx
    have hreturns : (x.step (.recv buffers count wait onePacket md agenda)).returns =
        x.returns ++ [⟨.error e, buffers, md⟩] := congrArg RxSession.returns hx
    refine ⟨⟨t, described_agenda (hx ▸ hd'.misuse e buffers md) []⟩, ?_, ?_, ?_, ?_⟩
    · rw [hreceiver, h.format]
    · rw [hreceiver, h.rate]
    · rw [hreceiver]
      exact h.kept
    · rw [hreturns, List.forall_mem_append, List.forall_mem_singleton]
      exact ⟨h.clean, nofun⟩
  · rw [he] at hx
    obtain ⟨t', rfl⟩ := List.length_eq_one_iff.1 hC.length
    have hreceiver : (x.step (.recv buffers count wait onePacket md agenda)).reception.receiver =
        { x.reception.receiver with channels := [t'.channel], state := st, deferred := rep.kept } :=
      congrArg RxSession.receiver hx
    have hreturns : (x.step (.recv buffers count wait onePacket md agenda)).returns = x.returns ++ [y] :=
      congrArg RxSession.returns hx
    -- all that the channel has taken is without fault
    have hf : ∀ u ∈ [t'], Flawless x.reception.receiver.format u.taken := by
      obtain ⟨a, ha, hb⟩ := hT
      obtain rfl := (List.cons.inj ha).1
      rw [List.forall_mem_singleton, h.format]
      exact hb.holds.flawless.mono (List.prefix_append _ _)
    obtain ⟨hkept, hreport⟩ := (flawless_invariant x.reception.receiver.format).conditions hcount hC hf
      ⟨t, rfl, hd.sound t List.mem_cons_self⟩ h.kept
    refine ⟨⟨_, described_agenda (hx ▸ hd'.turn hC.earlier hr hy hT) []⟩, ?_, ?_, ?_, ?_⟩
    · rw [hreceiver]
      exact h.format
    · rw [hreceiver]
      exact h.rate
    · rw [hreceiver]
      exact hkept
    · rw [hreturns, List.forall_mem_append, List.forall_mem_singleton]
      refine ⟨h.clean, fun n hn => ?_⟩
      rw [hy.metadata]
      rcases hreport with ⟨hcode, hseq⟩ | ⟨-, c, hc, hmd⟩
      · exact ⟨by rw [hcode]; decide, by rw [hcode]; decide, hseq⟩
      · rw [hmd]
        exact hc _ md

/-- A command does not change what is known of the line and the calls. -/
theorem issue (h : Untroubled room format clock rate most x) (c : StreamCommand) :
    Untroubled room format clock rate most (x.step (.issue c)) := by
  obtain ⟨t, hd⟩ := h.described
  have hb := described_books hd
  obtain ⟨state, lane, he, hst, -⟩ := step_issue hd.channels hb.sound.toDevice c
  have hsends := hb.holds
  rw [he]
  exact ⟨⟨t, described_asked hd hst
    ⟨hsends.flawless, hsends.next, hsends.bursts, hsends.rate, hsends.samples, hsends.format⟩⟩,
    h.format, h.rate, h.kept, h.clean⟩

theorem step (h : Untroubled room format clock rate most x) {a : ReceptionAction S} (ha : a.Asks) :
    Untroubled room format clock rate most (x.step a) := by
  cases a with
  | recv buffers count wait onePacket md agenda => exact h.recv buffers wait onePacket md agenda ha
  | issue c => exact h.issue c
  | elapse nows =>
    obtain ⟨t, hd⟩ := h.described
    exact ⟨⟨t, described_elapse hd nows⟩, h.format, h.rate, h.kept, h.clean⟩

/-- Whatever is asked of a chain and whenever it goes on, no call reports a broken stream. -/
theorem run (h : Untroubled room format clock rate most x) {as : List (ReceptionAction S)} (ha : ∀ a ∈ as, a.Asks) :
    Untroubled room format clock rate most (x.run as) := by
  induction as generalizing x with
  | nil => exact h
  | cons a as ih => exact ih (h.step (ha a List.mem_cons_self)) fun b hb => ha b (List.mem_cons_of_mem _ hb)

end Untroubled

end Hearing

end Sim

end RadioStream
