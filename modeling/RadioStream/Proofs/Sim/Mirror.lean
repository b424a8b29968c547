import RadioStream.Proofs.Receiver.Session
import RadioStream.Proofs.Sim.Agreement
/-!
# The state of a receiver at rest

A receiver tells what its chain is doing from the commands that it sent and from the
packets that came back. Each side may run ahead of the other, so the state is right only
where nothing is on its way; and even then only if ends and starts did not cross:
a receiver asks for a stream when it takes the chain to be idle, or to stream in the same
manner, with no end of the stream on its way (`Reception.Admits`), and the chain ends a
stream only with nothing left to do, and says so (`Moment.Orderly`).

`state_at_rest` says that the receiver is then idle exactly if the chain is.
-/

namespace RadioStream.Sim

open ReceiveChain

/-! ## One step of the chain -/

namespace Agrees

variable {state s : StreamState} {ahead : List StreamMode} {c c' : ReceiveChain} {tells : List Incoming}

/-- A receiver that is not idle knows what kind of stream there is. -/
theorem kind_doing (h : Agrees state c.modes ahead) (hs : state ≠ .idle) (hq : c.modes ≠ []) :
    state.kind = c.doing.kind := by
  obtain ⟨m, ms, hm⟩ := List.exists_cons_of_ne_nil hq
  have hr := h.running (fun hstop => hs (h.halted hstop)) m (by simp [hm])
  rw [hr, doing, hm]

/-- The chain turns to what it has. -/
theorem turn (h : Agrees (c.dues.foldl StreamState.meets s) c.modes ahead) (ht : Turned c tells c')
    (halone : tells.any c.doing.ends = true → c'.modes = [] ∧ ∀ m ∈ ahead, m = .stopContinuous) :
    Agrees (tells.foldl StreamState.meets s) c'.modes ahead := by
  rw [StreamState.foldl_meets] at h ⊢
  -- a stream that the receiver takes to go on is ended by what ends that of the chain
  have hsame : c.dues.any s.ends = false → s ≠ .idle → c.modes ≠ [] → tells.any s.ends = tells.any c.doing.ends := by
    intro hd hs hq
    rw [hd] at h
    have hk := h.kind_doing hs hq
    exact congrArg tells.any (funext (StreamState.ends_congr hk))
  by_cases hend : tells.any c.doing.ends = true
  · obtain ⟨hq', ha⟩ := halone hend
    have hq : c.modes ≠ [] := by
      intro hq
      rw [doing, hq] at hend
      simp [StreamState.ends_idle] at hend
    have hidle : (if tells.any s.ends = true then .idle else s) = StreamState.idle := by
      by_cases hs : s = .idle
      · rw [hs]
        exact ite_self _
      · by_cases hd : c.dues.any s.ends = true
        · rw [if_pos (ht.owed s hd)]
        · rw [if_pos ((hsame (by simpa using hd) hs hq).trans hend)]
    rw [hidle, hq']
    exact ended h.order ha
  · have hstate : (if tells.any s.ends = true then .idle else s) = if c.dues.any s.ends = true then .idle else s := by
      by_cases hd : c.dues.any s.ends = true
      · rw [if_pos hd, if_pos (ht.owed s hd)]
      · rw [if_neg hd]
        by_cases hs : s = .idle
        · rw [hs]
          exact ite_self _
        · refine if_neg fun hy => ?_
          by_cases hq : c.modes = []
          · exact hd (ht.still hq s hy)
          · exact hend ((hsame (by simpa using hd) hs hq).symm.trans hy)
    rw [hstate]
    exact h.shrink ht.subset fun hq' => (ht.last hq').resolve_right hend

/-- The chain takes a command. -/
theorem handle {command : StreamCommand} (hp : c.phase = .listen)
    (h : Agrees (c.dues.foldl StreamState.meets s) c.modes (command.mode :: ahead)) :
    Agrees ((c.handle command).dues.foldl StreamState.meets s) (c.handle command).modes ahead := by
  by_cases hm : command.mode = .stopContinuous
  · obtain ⟨hd, hq⟩ := handle_stop hp hm
    rw [hm] at h
    obtain ⟨hidle, hended⟩ := h.stop
    rw [StreamState.foldl_meets] at hidle
    have hidle' : (c.handle command).dues.foldl StreamState.meets s = .idle := by
      rw [StreamState.foldl_meets]
      by_cases hs : c.dues.any s.ends = true
      · rw [if_pos (hd s hs)]
      · rw [if_neg hs] at hidle
        rw [hidle]
        exact ite_self _
    rw [hidle', hq]
    exact hended
  · obtain ⟨hd, hq | ⟨hq, hne⟩⟩ := handle_start hp hm
    · rw [hd, hq]
      exact h.hear hm
    · rw [hd, hq]
      exact h.ignore hm hne

end Agrees

/-! ## A line -/

namespace Moment

/-- What a receiver gets to know by the step: what the chain put on the link, and what it
owes then. -/
def tells (m : Moment) : List Incoming :=
  ((m.chain.step m.now m.link).2.toHost.pending.drop m.link.toHost.pending.length).map
    (.ofFrame m.chain.format) ++ (m.chain.step m.now m.link).1.dues

/-- The step loses no report, and ends a stream only where nothing is left to do. -/
structure Orderly (m : Moment) : Prop where
  reports : forgotten m.now m.chain m.link = []
  alone : m.tells.any m.chain.doing.ends = true → (m.chain.step m.now m.link).1.modes = [] ∧
    ∀ mode ∈ modesIn m.chain.rate (m.chain.step m.now m.link).2.toDevice.pending, mode = .stopContinuous

instance (m : Moment) : Decidable m.Orderly :=
  decidable_of_iff (forgotten m.now m.chain m.link = [] ∧ (m.tells.any m.chain.doing.ends = true →
      (m.chain.step m.now m.link).1.modes = [] ∧
        ∀ mode ∈ modesIn m.chain.rate (m.chain.step m.now m.link).2.toDevice.pending, mode = .stopContinuous))
    ⟨fun h => ⟨h.1, h.2⟩, fun h => ⟨h.1, h.2⟩⟩

end Moment

namespace ReceiveLine

/-- The packets on their way from the chain, with those that it owes. -/
def awaited (x : ReceiveLine) : List Incoming :=
  x.link.toHost.pending.map (.ofFrame x.chain.format) ++ x.chain.dues

/-- A receiver in some state, which has still to deal with some packets and has some frames
of the line, will be right about its chain, if all steps so far were orderly. -/
structure Mirrors (room : Nat) (format : WireFormat) (state : StreamState) (before : List Incoming)
    (away : List Frame) (x : ReceiveLine) : Prop where
  format : x.chain.format = format
  size : 0 < x.chain.packetSamples
  roomy : Header.size + x.chain.packetSamples * x.chain.format.sampleBytes ≤ room
  toHost : x.link.toHost.Stocked room 0 away
  toDevice : x.link.toDevice.Stocked 0 0 []
  isOpen : x.link.closed = true → x.chain.phase = .stopped
  agrees : (∀ m ∈ x.moments, m.Orderly) →
    Agrees ((before ++ x.awaited).foldl StreamState.meets state) x.chain.modes x.ahead

namespace Mirrors

variable {room : Nat} {format : WireFormat} {state : StreamState} {before : List Incoming} {away : List Frame}
  {x : ReceiveLine}

/-- The chain takes a step. -/
theorem tick (h : x.Mirrors room format state before away) (now : Reading) :
    (x.tick now).Mirrors room format state before away := by
  obtain ⟨heard, said, hm, hx⟩ := step_moves now h.toHost h.roomy
  obtain ⟨hformat, hrate, hsamples⟩ := hm.fixed
  have htold : said.map (fun e => Incoming.ofFrame x.chain.format (e.bytes x.chain.format)) ++
      (x.chain.step now x.link).1.dues = told said (x.chain.step now x.link).1 := by rw [told, hformat]
  refine ⟨hformat.trans h.format, hsamples.symm ▸ h.size, ?_, hx.stocked, hx.device h.toDevice, hm.isOpen hx h.isOpen,
    fun ho => ?_⟩
  · show Header.size + (x.chain.step now x.link).1.packetSamples *
      (x.chain.step now x.link).1.format.sampleBytes ≤ room
    rw [hformat, hsamples]
    exact h.roomy
  · obtain ⟨ho, hlast⟩ := List.forall_mem_append.1 ho
    have hlast := hlast ⟨now, x.chain, x.link⟩ List.mem_cons_self
    have htells : Moment.tells ⟨now, x.chain, x.link⟩ = told said (x.chain.step now x.link).1 := by
      rw [← htold]
      unfold Moment.tells
      rw [hx.said, List.drop_left, List.map_map]
      rfl
    have hawaited : (x.tick now).awaited = x.link.toHost.pending.map (Incoming.ofFrame x.chain.format) ++
        told said (x.chain.step now x.link).1 := by
      show (x.chain.step now x.link).2.toHost.pending.map (Incoming.ofFrame (x.chain.step now x.link).1.format) ++
        (x.chain.step now x.link).1.dues = _
      rw [hformat, hx.said, List.map_append, List.map_map, List.append_assoc, ← htold]
      rfl
    have hahead : x.ahead = (heard.filterMap (command? x.chain.rate)).map (·.mode) ++ (x.tick now).ahead := by
      show _ = _ ++ modesIn (x.chain.step now x.link).1.rate (x.chain.step now x.link).2.toDevice.pending
      rw [ahead, hx.heard, modesIn_append, hrate]
      rfl
    have ha := h.agrees ho
    rw [awaited, ← List.append_assoc, List.foldl_append, hahead] at ha
    rw [hawaited, ← List.append_assoc, List.foldl_append]
    rcases hm.turned h.size h.isOpen hlast.reports with ⟨hnone, ht⟩ | ⟨command, hone, rfl, hp, hc⟩
    · rw [hnone] at ha
      refine ha.turn ht fun hend => ?_
      obtain ⟨hq, hstops⟩ := hlast.alone (htells ▸ hend)
      rw [← hrate] at hstops
      exact ⟨hq, hstops⟩
    · rw [hone] at ha
      have hhandle := Agrees.handle hp ha
      rw [← hc] at hhandle
      exact hhandle

theorem ticks (h : x.Mirrors room format state before away) (nows : List Reading) :
    (x.ticks nows).Mirrors room format state before away := by
  induction nows generalizing x with
  | nil => exact h
  | cons now nows ih => exact ih (h.tick now)

theorem elapse {d : Downlink} (h : d.line.Mirrors room format state before away) :
    d.elapse.line.Mirrors room format state before away := by
  unfold Downlink.elapse
  split
  · exact h
  · exact h.ticks _

/-- The receiver takes a packet. -/
theorem receive (h : x.Mirrors room format state [] away) {f : Frame} {lane : Lane}
    (hr : x.link.toHost.receive = (some f, lane)) :
    { x with link := { x.link with toHost := lane } }.Mirrors room format state [.ofFrame format f.payload]
      (away ++ [f]) where
  format := h.format
  size := h.size
  roomy := h.roomy
  toHost := h.toHost.receive hr
  toDevice := h.toDevice
  isOpen := h.isOpen
  agrees ho := by
    have ha := h.agrees ho
    have hp : x.link.toHost.pending = f.payload :: lane.pending := by
      rw [Lane.pending, (Lane.receive_some hr).1]
      rfl
    rw [awaited, hp, h.format] at ha
    rw [awaited, h.format]
    exact ha

/-- It asks for something: to stop, or for a stream that nothing on its way will end. -/
theorem ask (h : x.Mirrors room format state before away) {c : StreamCommand} {lane : Lane}
    (hst : lane.Stocked 0 0 []) (hahead : modesIn x.chain.rate lane.pending = x.ahead ++ [c.mode])
    (hc : c.isStart = true → (state = .idle ∨ state.kind = (StreamState.streaming c.mode).kind) ∧
      .stopContinuous ∉ x.ahead ∧ (before ++ x.awaited).any (StreamState.streaming c.mode).ends = false) :
    { x with link := { x.link with toDevice := lane } }.Mirrors room format (.ofCommand c) before away where
  format := h.format
  size := h.size
  roomy := h.roomy
  toHost := h.toHost
  toDevice := hst
  isOpen := h.isOpen
  agrees ho := by
    have ha := h.agrees ho
    show Agrees ((before ++ x.awaited).foldl StreamState.meets _) _ (modesIn x.chain.rate lane.pending)
    rw [hahead]
    rw [StreamState.foldl_meets] at ha ⊢
    by_cases hstart : c.isStart = true
    · obtain ⟨hkind, hstop, hends⟩ := hc hstart
      rw [show StreamState.ofCommand c = .streaming c.mode from if_pos hstart, hends]
      refine ha.askStart (by simpa [StreamCommand.isStart] using hstart) hstop ?_
      split
      · exact .inl rfl
      · exact hkind
    · have hstop : c.mode = .stopContinuous := by simpa [StreamCommand.isStart] using hstart
      rw [show StreamState.ofCommand c = .idle from if_neg hstart, hstop, ite_self]
      exact ha.askStop

/-- It has dealt with a packet. -/
theorem settle {i : Incoming} (h : x.Mirrors room format state (i :: before) away) :
    x.Mirrors room format (state.meets i) before away where
  __ := h

/-- It lets the frame go. -/
theorem recycle {f : Frame} (h : x.Mirrors room format state before [f]) :
    { x with link := { x.link with toHost := x.link.toHost.recycle f } }.Mirrors room format state before [] where
  format := h.format
  size := h.size
  roomy := h.roomy
  toHost := by
    have hs : x.link.toHost.Stocked room 0 ([] ++ f :: []) := h.toHost
    obtain ⟨hf, hst⟩ := hs.give
    exact hst.recycle hf
  toDevice := h.toDevice
  isOpen := h.isOpen
  agrees := h.agrees

end Mirrors

end ReceiveLine

/-! ## Sessions -/

/-- The packet held, as far as the state of the receiver has still to follow it. -/
def Held.incoming (h : Held) : Incoming := .data h.header h.samples

/-- A receiver in some state with the packet that it holds will be right about its chain. -/
def Downlink.Mirrors (room : Nat) (format : WireFormat) (state : StreamState) (held : Option Held) (d : Downlink) :
    Prop :=
  d.line.Mirrors room format state (held.map Held.incoming).toList (held.map (·.frame)).toList

namespace Downlink

theorem receive_terminal (wait : Nat) (d : Downlink) :
    terminal.receive wait d = (d.elapse.line.link.toHost.receive.1,
      d.elapse.withLink { d.elapse.line.link with toHost := d.elapse.line.link.toHost.receive.2 }) := rfl

variable {room : Nat} {format : WireFormat} {state : StreamState}

theorem Mirrors.receive_none {d d' : Downlink} (h : Mirrors room format state none d) {wait : Nat}
    (hr : terminal.receive wait d = (none, d')) : Mirrors room format state none d' := by
  have he : d.elapse.line.Mirrors room format state [] [] := ReceiveLine.Mirrors.elapse h
  rw [receive_terminal] at hr
  rcases hl : d.elapse.line.link.toHost.receive with ⟨_ | f, lane⟩ <;> rw [hl] at hr <;> cases hr
  obtain ⟨-, rfl⟩ := Lane.receive_none hl
  exact he

theorem Mirrors.receive_some {d d' : Downlink} (h : Mirrors room format state none d) {wait : Nat} {f : Frame}
    (hr : terminal.receive wait d = (some f, d')) :
    d'.line.Mirrors room format state [.ofFrame format f.payload] [f] := by
  have he : d.elapse.line.Mirrors room format state [] [] := ReceiveLine.Mirrors.elapse h
  rw [receive_terminal] at hr
  rcases hl : d.elapse.line.link.toHost.receive with ⟨_ | g, lane⟩ <;> rw [hl] at hr <;> cases hr
  exact he.receive hl

/-- Handling packets keeps the receiver right. -/
theorem follows (room : Nat) (format : WireFormat) : Follows terminal format (Mirrors room format) where
  silence h hr := h.receive_none hr
  pass h hr _ := (h.receive_some hr).elapse.settle.recycle
  hold h hr hi := by
    have hd := h.receive_some hr
    rw [hi] at hd
    exact hd
  advance _ h := h
  letGo {_ g d} h := by
    have he : d.elapse.line.Mirrors room format _ [Held.incoming g] [g.frame] := ReceiveLine.Mirrors.elapse h
    exact he.settle.recycle

end Downlink

namespace Reception

/-- The packets that the receiver has still to deal with. -/
def awaited (x : Reception) : List Incoming :=
  (x.receiver.leading?.map Held.incoming).toList ++ x.line.awaited

/-- A start is asked for in time: the receiver is idle or goes on in the same manner, no stop
is on its way to the chain, and no end of the stream on its way back. -/
structure Admits (x : Reception) (c : StreamCommand) : Prop where
  kind : x.receiver.state = .idle ∨ x.receiver.state.kind = (StreamState.streaming c.mode).kind
  unstopped : .stopContinuous ∉ x.line.ahead
  unended : x.awaited.any (StreamState.streaming c.mode).ends = false

instance (x : Reception) (c : StreamCommand) : Decidable (x.Admits c) :=
  decidable_of_iff ((x.receiver.state = .idle ∨ x.receiver.state.kind = (StreamState.streaming c.mode).kind) ∧
      .stopContinuous ∉ x.line.ahead ∧ x.awaited.any (StreamState.streaming c.mode).ends = false)
    ⟨fun h => ⟨h.1, h.2.1, h.2.2⟩, fun h => ⟨h.1, h.2, h.3⟩⟩

/-- Commands come to the chain in time, and the chain ends streams when it is done. -/
structure Orderly {S : Type} [HostSample S] (x : Reception) (as : List (ReceptionAction S)) : Prop where
  starts : ∀ p ∈ x.issues as, p.2.isStart = true → p.1.Admits p.2
  steps : ∀ m ∈ (x.run as).line.moments, m.Orderly

/-- Nothing is on its way, and the chain owes nothing. -/
structure AtRest (x : Reception) : Prop where
  handled : x.line.link.toDevice.pending = []
  taken : x.line.link.toHost.pending = []
  held : x.receiver.leading? = none
  owed : x.line.chain.dues = []

/-- The receiver will be right about its chain. -/
def Mirrors (room : Nat) (format : WireFormat) (x : Reception) : Prop :=
  Follows.Holds format (Downlink.Mirrors room format) x.receiver { line := x.line }

variable {S : Type} [HostSample S] {room : Nat} {format : WireFormat} {x : Reception}

theorem Mirrors.fresh {g : Geometry} {l : Link} (hl : Link.new g = .ok l) {rate : Float} {most : Nat} {r : Receiver}
    (hr : Receiver.new [g.recvFrameSize] format rate most = .ok r) :
    Mirrors g.recvFrameSize format ⟨r, .fresh format rate most l⟩ := by
  obtain ⟨hpos, hfit⟩ := Receiver.fits_of_new hr
  obtain ⟨-, rfl⟩ := Receiver.eq_of_new hr
  have hhost := Link.lane_of_new hl .host
  have hdevice := Link.lane_of_new hl .device
  have hpending := Lane.pending_of_new hhost
  have hahead := Lane.pending_of_new hdevice
  refine ⟨rfl, {}, rfl, rfl, hpos, hfit _ List.mem_cons_self, .of_new hhost (Lane.frameSize_of_new hhost).ge,
    .of_new hdevice (Nat.zero_le _), fun hc => ?_, fun _ => ?_⟩
  · cases (Link.isOpen_of_new hl).symm.trans hc
  · show Agrees ((l.toHost.pending.map _ ++ []).foldl _ _) [] (modesIn rate l.toDevice.pending)
    rw [show l.toHost.pending = [] from hpending, show l.toDevice.pending = [] from hahead]
    exact .nothing

/-- Where the receiver follows a command, it is on its way. -/
theorem Mirrors.issue (h : x.Mirrors room format) {c : StreamCommand} (hc : c.isStart = true → x.Admits c) :
    (x.step (.issue c : ReceptionAction S)).Mirrors room format := by
  obtain ⟨hformat, ch, hch, hm⟩ := h
  have hlead : x.receiver.leading? = ch.held := by rw [Receiver.leading?, hch]; rfl
  obtain ⟨res, r', lane, he, hst, hr⟩ := issue_spec hch c hm.toDevice
  unfold Reception.step
  dsimp only
  rw [he]
  rcases hr with ⟨rfl, hahead⟩ | ⟨rfl, hpending⟩
  · refine ⟨hformat, ch, hch, hm.ask hst (hahead _) fun hstart => ?_⟩
    obtain ⟨hkind, hstop, hends⟩ := hc hstart
    rw [awaited, hlead] at hends
    exact ⟨hkind, hstop, hends⟩
  · refine ⟨hformat, ch, hch, hm.format, hm.size, hm.roomy, hm.toHost, hst, hm.isOpen, fun ho => ?_⟩
    have ha := hm.agrees ho
    rw [ReceiveLine.ahead, ← hpending] at ha
    exact ha

theorem Mirrors.step (h : x.Mirrors room format) (a : ReceptionAction S)
    (ha : ∀ c, a = .issue c → c.isStart = true → x.Admits c) : (x.step a).Mirrors room format := by
  cases a with
  | recv buffers count wait onePacket md agenda =>
    have h' : Follows.Holds format (Downlink.Mirrors room format) x.receiver { line := x.line, agenda } := h
    have hf : Follows ((fun _ : Nat => Downlink.terminal) 0) format (Downlink.Mirrors room format) :=
      Downlink.follows room format
    exact hf.recv buffers count wait onePacket md h'
  | issue c => exact h.issue (ha c rfl)
  | elapse nows =>
    obtain ⟨hformat, ch, hch, hm⟩ := h
    exact ⟨hformat, ch, hch, hm.ticks nows⟩

theorem Mirrors.run (h : x.Mirrors room format) {as : List (ReceptionAction S)}
    (hs : ∀ p ∈ x.issues as, p.2.isStart = true → p.1.Admits p.2) : (x.run as).Mirrors room format := by
  induction as generalizing x with
  | nil => exact h
  | cons a as ih =>
    cases a with
    | recv | elapse => exact ih (h.step _ fun c hc => by cases hc) hs
    | issue c =>
      obtain ⟨hc, hs⟩ := List.forall_mem_cons.1 hs
      exact ih (h.issue hc) hs

end Reception

/-- A receiver of one channel and a chain: at rest, the receiver is idle exactly if the chain
has neither a burst nor a command, whatever was asked for and however the chain took its
turns, if commands and ends did not cross. -/
theorem state_at_rest {S : Type} [HostSample S] {g : Geometry} {l : Link} (hl : Link.new g = .ok l)
    {format : WireFormat} {rate : Float} {most : Nat} {r : Receiver}
    (hr : Receiver.new [g.recvFrameSize] format rate most = .ok r) (as : List (ReceptionAction S)) :
    let x : Reception := ⟨r, .fresh format rate most l⟩
    let y := x.run as
    x.Orderly as → y.AtRest →
    (y.receiver.state = .idle ↔ y.line.chain.burst = none ∧ y.line.chain.commands = []) := by
  intro x y ho hrest
  obtain ⟨hformat, ch, hch, hm⟩ := (Reception.Mirrors.fresh hl hr).run ho.starts
  have hheld : ch.held = none := by
    have hlead := hrest.held
    rw [Receiver.leading?, hch] at hlead
    exact hlead
  have ha := hm.agrees ho.steps
  rw [hheld, ReceiveLine.awaited, hrest.taken, hrest.owed, ReceiveLine.ahead, hrest.handled] at ha
  have hq : y.line.chain.modes = [] ↔ y.line.chain.burst = none ∧ y.line.chain.commands = [] := by
    simp [modes, Option.toList_eq_nil_iff]
  rw [← hq]
  exact ha.idle_iff

/-- Two commands that continue one another are carried out, and a stream goes on until a
stop. Its first packet was taken, and so was the second. -/
theorem state_at_rest_streaming :
    let now : Reading := { elapsed := 1, tick := 1, left? := fun _ => some 0 }
    let recv (n : Nat) (steps : List Nat) : ReceptionAction (Iq Int16) :=
      .recv [List.replicate n ⟨0, 0⟩] n 0 false {} (steps.map (List.replicate · now))
    let as : List (ReceptionAction (Iq Int16)) :=
      [.issue (.now .samplesAndMore 3), .issue (.now .samplesAndDone 2), recv 5 [7, 0, 4, 0, 4],
        .issue (.now .startContinuous 0), recv 2 [6], .elapse (List.replicate 4 now), recv 2 []]
    let g : Geometry := { recvFrameSize := 24, sendFrameSize := 28, recvFrames := 2, sendFrames := 2 }
    let r : Receiver := { channels := [{}], format := .sc16, rate := 1, packetSamples := 2 }
    ∃ l, Link.new g = .ok l ∧ Receiver.new [g.recvFrameSize] .sc16 1 2 = .ok r ∧
      let x : Reception := ⟨r, .fresh .sc16 1 2 l⟩
      let y := x.run as
      x.Orderly as ∧ y.AtRest ∧ y.receiver.state = .streaming .startContinuous ∧
      (y.receiver.state = .idle ↔ y.line.chain.burst = none ∧ y.line.chain.commands = []) := by
  intro now recv as g r
  have hl : ∃ l, Link.new g = .ok l := ⟨_, rfl⟩
  obtain ⟨l, hl⟩ := hl
  have hr : Receiver.new [g.recvFrameSize] .sc16 1 2 = .ok r := rfl
  have ho : Reception.Orderly ⟨r, .fresh .sc16 1 2 l⟩ as := by
    cases hl
    exact ⟨by decide +kernel, by decide +kernel⟩
  have hrest : (Reception.run ⟨r, .fresh .sc16 1 2 l⟩ as).AtRest := by
    cases hl
    exact ⟨by decide +kernel, by decide +kernel, by decide +kernel, by decide +kernel⟩
  have hs : (Reception.run ⟨r, .fresh .sc16 1 2 l⟩ as).receiver.state = .streaming .startContinuous := by
    cases hl
    decide +kernel
  exact ⟨l, hl, hr, ho, hrest, hs, state_at_rest hl hr as ho hrest⟩

end RadioStream.Sim
