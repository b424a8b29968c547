import RadioStream.Proofs.RoundTrip
import RadioStream.Proofs.Transmitter.Exact
import RadioStream.Proofs.Transmitter.Send
/-!
# A command on its way to the channels

A command goes out on one channel after the other, up to the first that does not take it:
one without a frame, or one whose frame is too small for the packet. `Fares` follows it, for
any way to tell how the channels stand, and `issueFrom_fares` finds it in what a receiver does.

So the channels that have the command are the first ones, and each has it once. The two ways
to be stopped differ in what the receiver makes of them. Without a frame its state follows
the command if a channel took it; over a frame that is too small the state stays as it was.
-/

namespace RadioStream

variable {α σ : Type}

namespace StreamCommand

/-- The packet of a command. -/
def packet (c : StreamCommand) (rate : Float) : Bytes := ((c.header rate).sized c.payload).bytes ++ c.payload

theorem length_packet (c : StreamCommand) (rate : Float) : (c.packet rate).length = 28 := by
  rw [packet, List.length_append, Header.length_bytes, length_payload]
  rfl

theorem packet_ne_nil (c : StreamCommand) (rate : Float) : c.packet rate ≠ [] :=
  List.ne_nil_of_length_pos (by rw [length_packet]; decide)

/-- A frame with room for the packet begins with it. -/
theorem release_encode (c : StreamCommand) (rate : Float) {f : Frame} (h : 28 ≤ f.window.length) :
    (c.encode rate f.window).outcome = .ok 28 ∧ ((c.encode rate f.window).release f).payload = c.packet rate := by
  have hlen := c.length_packet rate
  obtain ⟨hok, hframe⟩ := ((c.header rate).encodePacket_puts c.payload f.window).fits (hlen.trans_le h)
  have hok : (c.encode rate f.window).outcome = .ok 28 := hok.trans (congrArg Except.ok hlen)
  have hframe : (c.encode rate f.window).frame = c.packet rate ++ f.window.drop (c.packet rate).length := hframe
  refine ⟨hok, ?_⟩
  rw [Written.release_of_ok hok (by rw [hframe, List.length_append]; omega), Frame.payload, hframe]
  exact List.take_left' hlen

/-- A frame without room is given up empty. -/
theorem release_encode_short (c : StreamCommand) (rate : Float) {f : Frame} (h : f.window.length < 28) :
    (c.encode rate f.window).outcome = .error (.argument (.noRoomForPacket 28 f.window.length)) ∧
      (c.encode rate f.window).release f = f.withUsed 0 := by
  have hwritten : c.encode rate f.window =
      ⟨.error (.argument (.noRoomForPacket 28 f.window.length)), f.window⟩ := by
    have hsize : Header.size + c.payload.length = 28 := by rw [length_payload]; rfl
    rw [encode, Header.encodePacket, hsize, if_pos h]
  rw [hwritten]
  refine ⟨rfl, ?_⟩
  rw [Written.release_of_error rfl, Frame.withUsed, Nat.zero_min]

end StreamCommand

/-! ## From channel to channel -/

/-- What stops a packet at a channel. -/
inductive Stop where
  /-- The channel has no frame for it. -/
  | noFrame
  /-- The channel has a frame of so many bytes, and they are too few. -/
  | noRoom (size : Nat)

/-- How a packet fares that goes out on one channel after the other: how many channels take it,
what stops it, and how the channels stand then. -/
inductive Fares (R : Traffic α) (packet : Bytes) : List α → Nat → Option Stop → List α → Prop where
  | whole : Fares R packet [] 0 none []
  | taken {a a' b : α} {as bs : List α} {f g : Frame} {k : Nat} {stop : Option Stop} : R.Asked a (some f) a' →
      packet.length ≤ f.window.length → g.payload = packet → R.Given a' g b → Fares R packet as k stop bs →
      Fares R packet (a :: as) (k + 1) stop (b :: bs)
  | noFrame {a b : α} {as : List α} : R.Asked a none b → Fares R packet (a :: as) 0 (some .noFrame) (b :: as)
  | noRoom {a a' b : α} {as : List α} {f : Frame} : R.Asked a (some f) a' → f.window.length < packet.length →
      R.Given a' (f.withUsed 0) b → Fares R packet (a :: as) 0 (some (.noRoom f.window.length)) (b :: as)

/-- Nothing stops the packet exactly if all channels take it. -/
theorem Fares.reach {R : Traffic α} {packet : Bytes} {as bs : List α} {k : Nat} {stop : Option Stop}
    (h : Fares R packet as k stop bs) : k ≤ as.length ∧ (stop = none ↔ k = as.length) := by
  induction h with
  | whole => simp
  | taken _ _ _ _ _ ih => simpa using ih
  | noFrame _ => simp
  | noRoom _ _ _ => simp

namespace Receiver

/-- What a receiver returns, and how it is left, when its command was taken by `k` channels. -/
def afterCommand (r : Receiver) (c : StreamCommand) (k : Nat) : Option Stop → Except Error Unit × Receiver
  | none => (.ok (), { r with state := StreamState.ofCommand c })
  | some .noFrame => (.error (.noCommandFrame k), if 0 < k then { r with state := StreamState.ofCommand c } else r)
  | some (.noRoom size) => (.error (.argument (.noRoomForPacket 28 size)), r)

/-- A command fares on the channels from one on as its packet does. -/
theorem issueFrom_fares {terminals : Nat → Terminal σ} {R : Traffic α} (o : Outlets terminals R) (c : StreamCommand)
    (r : Receiver) (before as : List α) {s : σ} (h : o.Tells (before ++ as) s) :
    ∃ k stop bs s', issueFrom terminals c before.length as.length r s =
        ((r.afterCommand c (before.length + k) stop).1, (r.afterCommand c (before.length + k) stop).2, s') ∧
      Fares R (c.packet r.rate) as k stop bs ∧ o.Tells (before ++ bs) s' := by
  -- all channels in `before` have taken the packet, or the command would not have come here
  induction as generalizing before s with
  | nil => exact ⟨0, none, [], s, rfl, .whole, h⟩
  | cons a as ih =>
    rw [List.length_cons, issueFrom, Terminal.send]
    rcases hacq : (terminals before.length).acquire commandWait s with ⟨_ | f, s₁⟩
    · obtain ⟨b, hasked, h₁⟩ := o.acquire h hacq
      exact ⟨0, some .noFrame, b :: as, s₁, rfl, .noFrame hasked, h₁⟩
    · obtain ⟨a', hasked, h₁⟩ := o.acquire h hacq
      obtain ⟨b, hgiven, h₂⟩ := o.submit ((c.encode r.rate f.window).release f) h₁
      dsimp only
      rw [Terminal.sendIn_eq]
      dsimp only
      by_cases hroom : 28 ≤ f.window.length
      · obtain ⟨hok, hpay⟩ := c.release_encode r.rate hroom
        rw [List.append_cons] at h₂
        obtain ⟨k, stop, bs, s', he, hfares, h'⟩ := ih (before ++ [b]) h₂
        rw [List.length_append, List.length_singleton, Nat.add_assoc, Nat.add_comm 1 k] at he
        rw [← List.append_cons] at h'
        rw [hok]
        exact ⟨k + 1, stop, b :: bs, s', he,
          .taken hasked (by rwa [c.length_packet]) hpay hgiven hfares, h'⟩
      · have hshort := Nat.lt_of_not_le hroom
        obtain ⟨herror, hempty⟩ := c.release_encode_short r.rate hshort
        rw [hempty] at hgiven
        rw [herror]
        -- the receiver is left as it is, whatever is in `before`
        exact ⟨0, some (.noRoom f.window.length), b :: as, _, rfl,
          .noRoom hasked (by rwa [c.length_packet]) hgiven, h₂⟩

/-- A command fares on all channels as its packet does. -/
theorem issue_fares {terminals : Nat → Terminal σ} {R : Traffic α} (o : Outlets terminals R) (c : StreamCommand)
    (r : Receiver) {as : List α} (hn : as.length = r.channels.length) {s : σ} (h : o.Tells as s) :
    ∃ k stop bs s', r.issue terminals c s = ((r.afterCommand c k stop).1, (r.afterCommand c k stop).2, s') ∧
      Fares R (c.packet r.rate) as k stop bs ∧ o.Tells bs s' := by
  obtain ⟨k, stop, bs, s', he, hfares, h'⟩ := issueFrom_fares o c r [] as h
  rw [List.length_nil, Nat.zero_add, hn] at he
  exact ⟨k, stop, bs, s', he, hfares, h'⟩

/-- A command returns no error if nothing stopped it, and the state follows it if a channel took
it and it was not stopped by a frame without room. -/
theorem afterCommand_eq (r : Receiver) (c : StreamCommand) {k : Nat} {stop : Option Stop} (hpos : stop = none → 0 < k)
    {roomy : Prop} [Decidable roomy] (hroomy : roomy ↔ ∀ size, stop ≠ some (.noRoom size)) :
    ((r.afterCommand c k stop).1 = .ok () ↔ stop = none) ∧
      (r.afterCommand c k stop).2 = { r with state := if 0 < k ∧ roomy then .ofCommand c else r.state } := by
  rcases stop with _ | _ | size
  · have hyes : roomy := by simp [hroomy]
    simp [afterCommand, hyes, hpos rfl]
  · have hyes : roomy := by simp [hroomy]
    by_cases hk : 0 < k <;> simp [afterCommand, hyes, hk]
  · have hno : ¬roomy := by simp [hroomy]
    simp [afterCommand, hno]

end Receiver

/-! ## What the channels have -/

/-- The packets given up on a channel. A frame with nothing in it goes home. -/
def Deal.packets (d : Deal) : List Bytes := (d.sent.map Frame.payload).filter (· ≠ [])

/-- Every frame that came had room for so many bytes. -/
def Deal.Roomy (size : Nat) (d : Deal) : Prop := ∀ g ∈ d.given, ∀ f ∈ g, size ≤ f.window.length

instance (size : Nat) (d : Deal) : Decidable (d.Roomy size) :=
  inferInstanceAs (Decidable (∀ g ∈ d.given, ∀ f ∈ g, size ≤ f.window.length))

/-- The frame that a lane gives next. -/
def Lane.nextFrame? (l : Lane) : Option Frame := l.home.idle.items.head?

/-- The frame that a lane gives next has room for so many bytes. -/
def Lane.hasRoom (size : Nat) (l : Lane) : Bool := l.nextFrame?.any fun f => size ≤ f.window.length

/-- One list for each of `n` channels: the first `k` have the packet, the others nothing. -/
def firstOnly (packet : Bytes) (k n : Nat) : List (List Bytes) :=
  List.replicate k [packet] ++ List.replicate (n - k) []

theorem firstOnly_succ (packet : Bytes) (k n : Nat) :
    firstOnly packet (k + 1) (n + 1) = [packet] :: firstOnly packet k n := by
  rw [firstOnly, firstOnly, Nat.add_sub_add_right, List.replicate_succ, List.cons_append]

theorem firstOnly_zero (packet : Bytes) (n : Nat) : firstOnly packet 0 n = List.replicate n [] := by
  rw [firstOnly, List.replicate_zero, List.nil_append, Nat.sub_zero]

namespace Fares

variable {packet : Bytes} {k : Nat} {stop : Option Stop}

/-- Nothing is on the record of channels that were not asked. -/
theorem unasked (size : Nat) {as : List Deal} (has : ∀ a ∈ as, a = {}) :
    as.map Deal.packets = List.replicate as.length [] ∧ ∀ d ∈ as, d.Roomy size := by
  constructor
  · rw [List.eq_replicate_iff.2 ⟨rfl, has⟩, List.map_replicate, List.length_replicate]
    rfl
  · intro d hd g hg
    rw [has d hd] at hg
    cases hg

/-- The record has the packet once on each of the first channels and nowhere else, and all frames
on it have room exactly if none without room stopped the packet. -/
theorem dealt {as ds : List Deal} (h : Fares Deal.traffic packet as k stop ds) (hne : packet ≠ [])
    (has : ∀ a ∈ as, a = {}) :
    ds.map Deal.packets = firstOnly packet k as.length ∧
      ((∀ d ∈ ds, d.Roomy packet.length) ↔ ∀ size, stop ≠ some (.noRoom size)) := by
  induction h with
  | whole => simp [firstOnly]
  | @taken a a' b as bs f g k stop hasked hroom hpay hgiven _ ih =>
    obtain ⟨rfl, hrest⟩ := List.forall_mem_cons.1 has
    obtain ⟨hpackets, hroomy⟩ := ih hrest
    obtain rfl : b = { given := [some f], sent := [g] } := by
      rw [show b = _ from hgiven, show a' = _ from hasked]
      rfl
    constructor
    · rw [List.map_cons, hpackets, List.length_cons, firstOnly_succ]
      simp [Deal.packets, hpay, hne]
    · rw [List.forall_mem_cons, ← hroomy]
      simp [Deal.Roomy, hroom]
  | @noFrame a b as hasked =>
    obtain ⟨rfl, hrest⟩ := List.forall_mem_cons.1 has
    obtain ⟨hpackets, hroomy⟩ := unasked packet.length hrest
    obtain rfl : b = { given := [none], sent := [] } := hasked
    constructor
    · rw [List.map_cons, hpackets, firstOnly_zero]
      rfl
    · have hall : ∀ d ∈ ({ given := [none] } : Deal) :: as, d.Roomy packet.length :=
        List.forall_mem_cons.2 ⟨by simp [Deal.Roomy], hroomy⟩
      exact iff_of_true hall (by simp)
  | @noRoom a a' b as f hasked hshort hgiven =>
    obtain ⟨rfl, hrest⟩ := List.forall_mem_cons.1 has
    obtain ⟨hpackets, -⟩ := unasked packet.length hrest
    obtain rfl : b = { given := [some f], sent := [f.withUsed 0] } := by
      rw [show b = _ from hgiven, show a' = _ from hasked]
      rfl
    constructor
    · rw [List.map_cons, hpackets, firstOnly_zero]
      simp [Deal.packets, Frame.payload, Frame.withUsed, List.replicate_succ]
    · simp [Deal.Roomy, hshort]

/-- On lanes, a packet comes as far as the next frames have room, and waits there once. What
stopped it is not a frame without room exactly if the lane it came to gives no frame. -/
theorem laned {ls ls' : List Lane} (h : Fares Lane.traffic packet ls k stop ls') (hne : packet ≠ [])
    (hst : ∀ l ∈ ls, l.Stocked 0 0 []) :
    k = (ls.takeWhile (Lane.hasRoom packet.length)).length ∧
      ls'.map Lane.pending = List.zipWith (· ++ ·) (ls.map Lane.pending) (firstOnly packet k ls.length) ∧
      (ls[k]?.bind Lane.nextFrame? = none ↔ ∀ size, stop ≠ some (.noRoom size)) := by
  induction h with
  | whole => simp [firstOnly]
  | @taken a a' b as bs f g k stop hasked hroom hpay hgiven _ ih =>
    obtain ⟨ha, hrest⟩ := List.forall_mem_cons.1 hst
    obtain ⟨hk, hpending, hstop⟩ := ih hrest
    obtain ⟨hidle, hwaiting⟩ := Lane.acquire_some hasked
    have hnext : a.hasRoom packet.length = true := by simp [Lane.hasRoom, Lane.nextFrame?, hidle, hroom]
    have hused : g.used ≠ 0 := by
      intro hz
      rw [Frame.payload, hz, List.take_zero] at hpay
      exact hne hpay.symm
    obtain ⟨-, ha'⟩ := ha.acquire hasked
    obtain ⟨hsent, -, -⟩ := ha'.submit (Nat.zero_le g.window.length) hused
    refine ⟨?_, ?_, ?_⟩
    · rw [List.takeWhile_cons_of_pos hnext, List.length_cons, hk]
    · have hb : b.pending = a.pending ++ [packet] := by
        rw [show b = a'.submit g from hgiven, Lane.pending, hsent, List.map_append, List.map_singleton, hpay, hwaiting,
          Lane.pending]
      rw [List.map_cons, List.map_cons, List.length_cons, firstOnly_succ, List.zipWith_cons_cons, hb, hpending]
    · rw [List.getElem?_cons_succ]
      exact hstop
  | @noFrame a b as hasked =>
    obtain ⟨hidle, rfl⟩ := Lane.acquire_none hasked
    have hnext : ¬b.hasRoom packet.length = true := by simp [Lane.hasRoom, Lane.nextFrame?, hidle]
    refine ⟨?_, ?_, ?_⟩
    · rw [List.takeWhile_cons_of_neg hnext, List.length_nil]
    · rw [firstOnly_zero, ← List.length_map Lane.pending, zipWith_append_replicate_nil]
    · simp [Lane.nextFrame?, hidle]
  | @noRoom a a' b as f hasked hshort hgiven =>
    obtain ⟨ha, -⟩ := List.forall_mem_cons.1 hst
    obtain ⟨hidle, hwaiting⟩ := Lane.acquire_some hasked
    have hnext : ¬a.hasRoom packet.length = true := by simp [Lane.hasRoom, Lane.nextFrame?, hidle, hshort]
    obtain ⟨-, ha'⟩ := ha.acquire hasked
    obtain ⟨hhome, -⟩ := ha'.submit_empty (f := f.withUsed 0) (Nat.zero_le _) (Nat.zero_min _)
    refine ⟨?_, ?_, ?_⟩
    · rw [List.takeWhile_cons_of_neg hnext, List.length_nil]
    · have hb : b.pending = a.pending := by
        rw [show b = a'.submit (f.withUsed 0) from hgiven, Lane.pending, hhome, hwaiting, Lane.pending]
      rw [List.map_cons, hb, ← List.map_cons, firstOnly_zero, ← List.length_map Lane.pending,
        zipWith_append_replicate_nil]
    · simp [Lane.nextFrame?, hidle]

end Fares

/-- What is recorded of each channel when a command is sent. -/
def Receiver.commandDeals (r : Receiver) (terminals : Nat → Terminal σ) (c : StreamCommand) (s : σ) : List Deal :=
  (r.issue (dealing terminals) c ⟨s, List.replicate r.channels.length {}⟩).2.2.deals

/-- The channels that have a command after it was sent are the first ones, all of them exactly if
no error is returned, and each has the packet once. The state follows the command exactly if
there are such channels and no frame came that was too small for the packet.

On links these are the channels up to the first whose next frame has no room for the packet, and
the state stays if that one has a frame at all. -/
theorem issue_reaches {r : Receiver} (hne : r.channels ≠ []) (c : StreamCommand) :
    (∀ {σ : Type} (terminals : Nat → Terminal σ) (s : σ),
      let ds := r.commandDeals terminals c s
      ∃ k ≤ r.channels.length, ∃ result s',
        r.issue terminals c s = (result,
          { r with state := if 0 < k ∧ ∀ d ∈ ds, d.Roomy 28 then .ofCommand c else r.state }, s') ∧
        (result = .ok () ↔ k = r.channels.length) ∧
        ds.map Deal.packets = firstOnly (c.packet r.rate) k r.channels.length) ∧
    ∀ ls : List Link, ls.length = r.channels.length → (∀ l ∈ ls, (l.outbound .host).Stocked 0 0 []) →
      let lanes := ls.map (·.outbound .host)
      let k := (lanes.takeWhile (Lane.hasRoom 28)).length
      ∃ result ls',
        r.issue Terminal.host c ls = (result,
          { r with state := if 0 < k ∧ lanes[k]?.bind Lane.nextFrame? = none then .ofCommand c else r.state }, ls') ∧
        (result = .ok () ↔ k = r.channels.length) ∧
        (ls'.map (·.outbound .host)).map Lane.pending =
          List.zipWith (· ++ ·) (lanes.map Lane.pending) (firstOnly (c.packet r.rate) k r.channels.length) := by
  have hpos : 0 < r.channels.length := List.length_pos_iff.2 hne
  have hsize := c.length_packet r.rate
  refine ⟨fun terminals s => ?_, fun ls hlen hst => ?_⟩
  · -- the command in surroundings that begin with nothing on the record
    have hn : (List.replicate r.channels.length ({} : Deal)).length = r.channels.length := List.length_replicate
    obtain ⟨k, stop, ds, s', he, hfares, htells⟩ := r.issue_fares
      (s := ⟨s, List.replicate r.channels.length {}⟩) (dealOutlets terminals) c hn rfl
    have hdeals : r.commandDeals terminals c s = ds := by
      rw [Receiver.commandDeals, he]
      exact htells
    obtain ⟨hk, hall⟩ := hfares.reach
    obtain ⟨hpackets, hroomy⟩ := hfares.dealt (c.packet_ne_nil r.rate) fun a ha => List.eq_of_mem_replicate ha
    rw [hn] at hk hall hpackets
    rw [hsize] at hroomy
    obtain ⟨hok, hafter⟩ := r.afterCommand_eq c (fun h => hall.1 h ▸ hpos) hroomy
    have hshown : r.issue terminals c s = Prod.map id (Prod.map id Dealt.inner)
        (r.issue (dealing terminals) c ⟨s, List.replicate r.channels.length {}⟩) :=
      issueFrom_shown (dealing_shows terminals) c r.channels.length 0 r ⟨s, List.replicate r.channels.length {}⟩
    rw [he, hafter] at hshown
    dsimp only
    rw [hdeals]
    exact ⟨k, hk, _, s'.inner, hshown, hok.trans hall, hpackets⟩
  · intro lanes k
    have hlanes : lanes.length = r.channels.length := (List.length_map _).trans hlen
    obtain ⟨k', stop, lanes', ls', he, hfares, hlen', htells⟩ := r.issue_fares (laneOutlets (through_ofEnd .host) ls) c
      hlanes ⟨List.length_map _, (zipWith_withOutbound_self .device ls).symm⟩
    obtain ⟨hk', hall⟩ := hfares.reach
    obtain ⟨hk, hpending, hroomy⟩ := hfares.laned (c.packet_ne_nil r.rate) (List.forall_mem_map.2 hst)
    rw [hsize] at hk
    obtain rfl : k' = k := hk
    rw [hlanes] at hall hpending
    obtain ⟨hok, hafter⟩ := r.afterCommand_eq c (fun h => hall.1 h ▸ hpos) hroomy
    have houtbound : ls'.map (·.outbound .host) = lanes' := by
      rw [htells]
      exact map_inbound_zipWith .device hlen'
    rw [hafter] at he
    exact ⟨_, ls', he, hok.trans hall, houtbound ▸ hpending⟩

/-- Two links, the second one with frames of sixteen bytes: the first channel has the command to
start, and the receiver is idle as before. -/
theorem issue_reaches_first :
    let r : Receiver := { channels := [{}, {}], format := .sc16, rate := 1, packetSamples := 10 }
    let c : StreamCommand := .now .startContinuous 0
    ∃ ls, [{ sendFrameSize := 256, sendFrames := 8 }, { sendFrameSize := 16, sendFrames := 8 }].mapM Link.new = .ok ls ∧
      ∃ result ls', r.issue Terminal.host c ls = (result, r, ls') ∧ result ≠ .ok () ∧
        (ls'.map (·.outbound .host)).map Lane.pending = [[c.packet 1], []] ∧
        r.state = .idle ∧ StreamState.ofCommand c = .streaming .startContinuous := by
  intro r c
  obtain ⟨ls, hls, hlen, hst, hpending, hreach, hgives⟩ : ∃ ls,
      [{ sendFrameSize := 256, sendFrames := 8 }, { sendFrameSize := 16, sendFrames := 8 }].mapM Link.new = .ok ls ∧
      ls.length = r.channels.length ∧ (∀ l ∈ ls, (l.outbound .host).Stocked 0 0 []) ∧
      (ls.map (·.outbound .host)).map Lane.pending = [[], []] ∧
      ((ls.map (·.outbound .host)).takeWhile (Lane.hasRoom 28)).length = 1 ∧
      ((ls.map (·.outbound .host))[1]?.bind Lane.nextFrame?).isSome := by
    refine ⟨_, rfl, rfl, ?_, rfl, by decide +kernel, by decide +kernel⟩
    intro l hl
    constructor
    · revert l
      decide +kernel
    · exact fun _ _ => Nat.zero_le _
  obtain ⟨result, ls', he, hok, hsent⟩ := (issue_reaches (r := r) (List.cons_ne_nil _ _) c).2 ls hlen hst
  rw [hreach] at he hok hsent
  rw [if_neg (fun h => by rw [h.2] at hgives; cases hgives)] at he
  rw [hpending] at hsent
  exact ⟨ls, hls, result, ls', he, fun h => absurd (hok.1 h) (by decide), hsent, rfl, rfl⟩

end RadioStream
