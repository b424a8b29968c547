import RadioStream.Proofs.Receiver.Following
import RadioStream.Proofs.RoundTrip
import RadioStream.Proofs.Sim.Moves
/-!
# A receiver and the chain of a device

The link of a receiver leads to a receive chain, which goes on with its work whenever the
receiver waits for a packet or lets one go: each of these moves is preceded by the steps
of the chain that the agenda holds. The line remembers the steps, so that one can speak
of what happened while a call was made.
-/

namespace RadioStream.Sim

/-- A step of a receive chain: what the clock showed, and the chain and its link before it. -/
structure Moment where
  now : Reading
  chain : ReceiveChain
  link : Link

/-- A receive chain on its link, with the steps that it took. -/
structure ReceiveLine where
  chain : ReceiveChain
  link : Link
  moments : List Moment := []

namespace ReceiveLine

/-- A line at the start of its chain. -/
def fresh (format : WireFormat) (rate : Float) (packetSamples : Nat) (link : Link) : ReceiveLine :=
  { chain := { format, rate, packetSamples }, link }

/-- The chain takes a step. -/
def tick (x : ReceiveLine) (now : Reading) : ReceiveLine :=
  let (chain, link) := x.chain.step now x.link
  { chain, link, moments := x.moments ++ [⟨now, x.chain, x.link⟩] }

/-- The chain takes some steps. -/
def ticks (x : ReceiveLine) (nows : List Reading) : ReceiveLine := nows.foldl tick x

end ReceiveLine

/-- The line of a receiver. The agenda holds the steps of the chain before each of its next
moves. -/
structure Downlink where
  line : ReceiveLine
  agenda : List (List Reading) := []

namespace Downlink

/-- What is next on the agenda happens. -/
def elapse (d : Downlink) : Downlink :=
  match d.agenda with
  | [] => d
  | nows :: agenda => { line := d.line.ticks nows, agenda }

/-- The same line with another link. -/
def withLink (d : Downlink) (link : Link) : Downlink := { d with line := { d.line with link } }

/-- The host end, before each use of which the agenda goes on. -/
def terminal : Terminal Downlink where
  receive _ d := let (f, link) := d.elapse.line.link.receive .host; (f, d.elapse.withLink link)
  recycle f d := d.elapse.withLink (d.elapse.line.link.recycle .host f)
  acquire _ d := let (f, link) := d.elapse.line.link.acquire .host; (f, d.elapse.withLink link)
  submit f d := d.elapse.withLink (d.elapse.line.link.submit .host f)
  backlog d := d.line.link.pending .host

end Downlink

/-! ## Sessions -/

/-- A receiver and its line. -/
structure Reception where
  receiver : Receiver
  line : ReceiveLine

/-- What happens in a reception. -/
inductive ReceptionAction (S : Type) where
  | recv (buffers : List (List S)) (count wait : Nat) (onePacket : Bool) (md : RxMetadata)
      (agenda : List (List Reading))
  | issue (c : StreamCommand)
  /-- The chain takes some steps between two calls. -/
  | elapse (nows : List Reading)

namespace Reception

variable {S : Type} [HostSample S]

def step (x : Reception) : ReceptionAction S → Reception
  | .recv buffers count wait onePacket md agenda =>
    let y := x.receiver.recv (fun _ => Downlink.terminal) buffers count wait onePacket md { line := x.line, agenda }
    ⟨y.receiver, y.surroundings.line⟩
  | .issue c =>
    let (_, receiver, d) := x.receiver.issue (fun _ => Downlink.terminal) c { line := x.line }
    ⟨receiver, d.line⟩
  | .elapse nows => { x with line := x.line.ticks nows }

def run (x : Reception) (as : List (ReceptionAction S)) : Reception := as.foldl step x

/-- The commands issued in a run, with the reception before each. -/
def issues (x : Reception) : List (ReceptionAction S) → List (Reception × StreamCommand)
  | [] => []
  | .issue c :: as => (x, c) :: (x.step (.issue c : ReceptionAction S)).issues as
  | a :: as => (x.step a).issues as

end Reception

/-! ## Commands on their way -/

open ReceiveChain

/-- The modes of the commands that frames hold. -/
def modesIn (rate : Float) (fs : List Bytes) : List StreamMode := (fs.filterMap (command? rate)).map (·.mode)

theorem modesIn_append (rate : Float) (fs gs : List Bytes) :
    modesIn rate (fs ++ gs) = modesIn rate fs ++ modesIn rate gs := by
  rw [modesIn, List.filterMap_append, List.map_append, modesIn, modesIn]

namespace ReceiveLine

/-- The modes of the commands on their way to the chain. -/
def ahead (x : ReceiveLine) : List StreamMode := modesIn x.chain.rate x.link.toDevice.pending

end ReceiveLine

/-- A command that was written into a frame is read back, but for its time. -/
theorem command?_payload (c : StreamCommand) {h : Header} (hk : h.kind = .command) (rate : Float) :
    command? rate ({ h with payloadLength := UInt32.ofNat c.payload.length }.bytes ++ c.payload) =
      some { c with
        immediate := c.immediate || !h.hasTime
        time := if h.hasTime then Instant.ofCounter h.timestamp rate else Instant.zero } := by
  have hsize : (UInt32.ofNat c.payload.length).toNat = c.payload.length := by
    simp [StreamCommand.payload, length_bigEndian]
  have hd := Header.decode_bytes { h with payloadLength := UInt32.ofNat c.payload.length } c.payload hsize.le
  unfold command?
  rw [hd]
  dsimp only
  rw [if_pos hk, hsize, List.take_length, c.decode_payload_eq]
  rfl

theorem modesIn_payload (c : StreamCommand) {h : Header} (hk : h.kind = .command) (rate : Float) :
    modesIn rate [{ h with payloadLength := UInt32.ofNat c.payload.length }.bytes ++ c.payload] = [c.mode] := by
  rw [modesIn, List.filterMap_cons_some (command?_payload c hk rate), List.filterMap_nil, List.map_singleton]

/-- The host sends a packet, if a frame is idle. -/
theorem send_terminal {x : ReceiveLine} (hs : x.link.toDevice.Stocked 0 0 []) (wait : Nat) {write : Bytes → Written}
    (hlen : ∀ w, (write w).frame.length = w.length)
    (hok : ∀ w n, (write w).outcome = .ok n → 0 < n ∧ n ≤ w.length) :
    Downlink.terminal.send wait write { line := x } = (none, { line := x }) ∨
      ∃ w lane, Downlink.terminal.send wait write { line := x } =
          (some (write w).outcome, { line := { x with link := { x.link with toDevice := lane } } }) ∧
        lane.Stocked 0 0 [] ∧ lane.pending = x.link.toDevice.pending ++ (write w).packets := by
  have ha : Downlink.terminal.acquire wait { line := x } =
      (x.link.toDevice.acquire.1,
        { line := { x with link := { x.link with toDevice := x.link.toDevice.acquire.2 } } }) :=
    rfl
  unfold Terminal.send
  rw [ha]
  rcases hf : x.link.toDevice.acquire with ⟨_ | f, lane⟩
  · obtain ⟨-, rfl⟩ := Lane.acquire_none hf
    exact .inl rfl
  · obtain ⟨-, hw⟩ := Lane.acquire_some hf
    obtain ⟨hroom, hst⟩ := hs.acquire hf
    obtain ⟨hst', hp⟩ := hst.post hroom (hlen f.window) (hok f.window)
    right
    dsimp only
    rw [Terminal.sendIn_eq]
    refine ⟨f.window, _, rfl, hst', hp.trans ?_⟩
    rw [Lane.pending, hw, Lane.pending]

/-- The packet of a command. -/
def commandBytes (c : StreamCommand) (rate : Float) : Bytes :=
  { c.header rate with payloadLength := UInt32.ofNat c.payload.length }.bytes ++ c.payload

theorem kind_header (c : StreamCommand) (rate : Float) : (c.header rate).kind = .command := by
  unfold StreamCommand.header Header.stamped
  split <;> rfl

/-- A command is on its way and the receiver follows it, or it fails and both are as they
were. -/
theorem issue_posts {r : Receiver} {ch : RxChannel} (hr : r.channels = [ch]) (c : StreamCommand) {x : ReceiveLine}
    (hs : x.link.toDevice.Stocked 0 0 []) :
    ∃ res r' lane, r.issue (fun _ => Downlink.terminal) c { line := x } =
        (res, r', { line := { x with link := { x.link with toDevice := lane } } }) ∧
      lane.Stocked 0 0 [] ∧
      ((res = .ok () ∧ r' = { r with state := .ofCommand c } ∧
          lane.pending = x.link.toDevice.pending ++ [commandBytes c r.rate]) ∨
        ((∃ e, res = .error e) ∧ r' = r ∧ lane.pending = x.link.toDevice.pending)) := by
  have hwrite : ∀ w, (∃ n w', c.encode r.rate w = ⟨.ok n, w'⟩ ∧ w'.length = w.length ∧ 0 < n ∧ n ≤ w.length ∧
      w'.take n = commandBytes c r.rate) ∨ ∃ e, c.encode r.rate w = ⟨.error e, w⟩ := by
    intro w
    by_cases hfit : Header.size + c.payload.length ≤ w.length
    · obtain ⟨w', he, hl, ht⟩ := (c.header r.rate).encodePacket_fits hfit
      exact .inl ⟨_, w', he, hl, Nat.add_pos_left (by decide) _, hfit, ht⟩
    · exact .inr ((c.header r.rate).encodePacket_short (Nat.lt_of_not_le hfit))
  have hlen : ∀ w, (c.encode r.rate w).frame.length = w.length := by
    intro w
    rcases hwrite w with ⟨n, w', he, hl, -⟩ | ⟨e, he⟩ <;> rw [he]
    exact hl
  have hok : ∀ w n, (c.encode r.rate w).outcome = .ok n → 0 < n ∧ n ≤ w.length := by
    intro w n hn
    rcases hwrite w with ⟨m, w', he, -, hpos, hle, -⟩ | ⟨e, he⟩ <;> rw [he] at hn <;> cases hn
    exact ⟨hpos, hle⟩
  have hn : r.channels.length = 1 := by rw [hr, List.length_singleton]
  unfold Receiver.issue
  rw [hn]
  unfold Receiver.issueFrom
  rcases send_terminal hs Receiver.commandWait hlen hok with he | ⟨w, lane, he, hst, hp⟩
  · rw [he]
    exact ⟨_, r, x.link.toDevice, rfl, hs, .inr ⟨⟨_, rfl⟩, rfl, rfl⟩⟩
  · rw [he]
    rcases hwrite w with ⟨n, w', hw, -, -, -, ht⟩ | ⟨e, hw⟩
    · rw [hw] at hp ⊢
      refine ⟨_, _, lane, rfl, hst, .inl ⟨rfl, rfl, ?_⟩⟩
      rw [hp, Written.packets]
      dsimp only
      rw [ht]
    · rw [hw] at hp ⊢
      refine ⟨_, r, lane, rfl, hst, .inr ⟨⟨e, rfl⟩, rfl, ?_⟩⟩
      rw [hp, Written.packets, List.append_nil]

theorem issue_spec {r : Receiver} {ch : RxChannel} (hr : r.channels = [ch]) (c : StreamCommand) {x : ReceiveLine}
    (hs : x.link.toDevice.Stocked 0 0 []) :
    ∃ res r' lane, r.issue (fun _ => Downlink.terminal) c { line := x } =
        (res, r', { line := { x with link := { x.link with toDevice := lane } } }) ∧
      lane.Stocked 0 0 [] ∧
      ((r' = { r with state := .ofCommand c } ∧ ∀ rate, modesIn rate lane.pending =
          modesIn rate x.link.toDevice.pending ++ [c.mode]) ∨
        (r' = r ∧ lane.pending = x.link.toDevice.pending)) := by
  obtain ⟨res, r', lane, he, hst, h⟩ := issue_posts hr c hs
  refine ⟨res, r', lane, he, hst, ?_⟩
  rcases h with ⟨-, hr', hp⟩ | ⟨-, h⟩
  · refine .inl ⟨hr', fun rate => ?_⟩
    rw [hp, modesIn_append, commandBytes, modesIn_payload c (kind_header c r.rate)]
  · exact .inr h

end RadioStream.Sim
