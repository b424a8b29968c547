import RadioStream.Proofs.Receiver.Trace
/-!
# Ends of bursts

A call says that a burst has ended if its last step used up the packets of all channels
and the packet of the first channel ends a burst. Such a step is always the last one of
its call, so no call reports two of them and none of them is passed over.

A packet of the first channel that is used up while another channel has samples left is
let go with its flag: no call reports the end of that burst.
-/

namespace RadioStream

namespace Handout

/-- The packet of the first channel ends a burst and has no samples left. -/
def finishes (h : Handout) : Bool := h.header.endOfBurst && h.left.head? == some 0

/-- The packet of the first channel ends a burst, and no channel has samples left. -/
def endsBurst (h : Handout) : Bool := h.header.endOfBurst && h.left.all (· == 0)

/-- Over one channel it is the same. -/
theorem endsBurst_of_single {h : Handout} (hl : h.left.length = 1) : h.endsBurst = h.finishes := by
  obtain ⟨n, hn⟩ := List.length_eq_one_iff.1 hl
  simp [endsBurst, finishes, hn]

end Handout

/-- A portion that ends a call as the end of a burst. -/
def Portion.endsBurst (p : Portion) : Bool := p.exhausted && p.header.endOfBurst

/-- The call reports the end of a burst. -/
def RxCall.endsBurst {S : Type} (c : RxCall S) : Bool :=
  match c.returned.outcome with
  | .ok _ => c.returned.metadata.endOfBurst
  | .error _ => false

/-- Surroundings that tell nothing of what was sent. -/
def blindLedger {σ : Type} (terminals : Nat → Terminal σ) : Ledger terminals where
  Tells as _ := ∀ a ∈ as, a.sent = none
  receive_some {before after a wait s s' f} hT _ _ := by
    simp only [List.forall_mem_append, List.forall_mem_cons] at hT ⊢
    exact ⟨by simp [Account.Admits, hT.2.1], hT.1, hT.2.1, hT.2.2⟩
  receive_none {before after a wait s s'} hT _ := ⟨by simp [Account.Spent, hT a (by simp)], hT⟩
  recycle {before after a s f} hT _ := by
    simp only [List.forall_mem_append, List.forall_mem_cons] at hT ⊢
    exact hT
  backlog {before after a s} hT fs hfs := by
    rw [hT a (by simp)] at hfs
    cases hfs

/-! ## One step of a call -/

section Steps

variable {σ S : Type} [HostSample S] {terminals : Nat → Terminal σ} {wait : Nat}

/-- The tracks of channels of which nothing else is known. -/
def tracksOf (cs : List RxChannel) : List Track := cs.map fun c => { channel := c }

theorem channel_tracksOf (cs : List RxChannel) : cs = (tracksOf cs).map (·.channel) := by
  simp [tracksOf, Function.comp_def]

theorem tells_tracksOf (cs : List RxChannel) (s : σ) :
    (blindLedger terminals).Tells ((tracksOf cs).map (·.account)) s := by
  simp [blindLedger, tracksOf, Track.account]

omit [HostSample S] in
/-- Alignment brings a packet to each channel, or meets a condition. -/
theorem align_channels {r r' : Receiver} {s s' : σ} {k : Option Condition} (hne : r.channels ≠ [])
    (h : r.align terminals wait s = (k, r', s')) :
    r'.channels.length = r.channels.length ∧ (k = none → ∀ c ∈ r'.channels, c.held.isSome) := by
  have hnt : tracksOf r.channels ≠ [] := by simpa [tracksOf] using hne
  obtain ⟨k', ts, s₁, ha, hp, -, hal⟩ :=
    align_spec (blindLedger terminals) wait (channel_tracksOf r.channels) hnt (tells_tracksOf r.channels s)
  rw [ha] at h
  cases h
  refine ⟨by simp [hp.length, tracksOf], fun hk c hc => ?_⟩
  obtain ⟨t, ht, rfl⟩ := List.mem_map.1 hc
  exact (hal hk).held t ht

/-- A packet that has handed out all of its samples is let go. -/
theorem isNone_advance {format : WireFormat} {n : Nat} {t : Track} {h : Held} (ht : t.channel.held = some h) :
    (t.advance format n).channel.held.isNone = (h.remaining - n == 0) := by
  have hr : ({ h with offset := h.offset + n } : Held).remaining = h.remaining - n := by
    simp only [Held.remaining]
    omega
  unfold Track.advance
  rw [ht]
  dsimp only
  rw [hr]
  by_cases hz : h.remaining - n = 0 <;> simp [hz]

/-- A step hands out samples of every channel. -/
theorem consume_channels {position most : Nat} {r r' : Receiver} {buffers buffers' : List (List S)} {s s' : σ}
    {p : Portion} (hh : ∀ c ∈ r.channels, c.held.isSome) (hne : r.channels ≠ [])
    (hl : buffers.length = r.channels.length)
    (h : r.consume terminals position most buffers s = (p, r', buffers', s')) :
    r'.channels.length = r.channels.length ∧ buffers'.length = buffers.length ∧
      (p.handout r).left.length = r.channels.length ∧ (p.handout r).endsBurst = p.endsBurst := by
  have hts : AllHeld (tracksOf r.channels) := by simpa [AllHeld, tracksOf] using hh
  have hnt : tracksOf r.channels ≠ [] := by simpa [tracksOf] using hne
  have hlt : buffers.length = (tracksOf r.channels).length := by simpa [tracksOf] using hl
  obtain ⟨p', s₁, hc, ho, -⟩ := consume_spec (blindLedger terminals) position most (channel_tracksOf r.channels) hts
    hnt hlt (tells_tracksOf r.channels s)
  rw [hc] at h
  cases h
  have hleft : (p.handout r).left.all (· == 0) = p.exhausted := by
    rw [ho.exhausted, Bool.eq_iff_iff]
    simp only [Portion.handout, List.all_eq_true, List.mem_map, List.mem_filterMap, tracksOf]
    constructor
    · rintro ha _ ⟨_, ⟨c, hc, rfl⟩, rfl⟩
      obtain ⟨g, hg⟩ := Option.isSome_iff_exists.1 (hh c hc)
      rw [isNone_advance hg]
      exact ha _ ⟨g, ⟨c, hc, hg⟩, rfl⟩
    · rintro ha _ ⟨g, ⟨c, hc, hg⟩, rfl⟩
      have hn := ha _ ⟨_, ⟨c, hc, rfl⟩, rfl⟩
      rwa [isNone_advance (t := { channel := c }) hg] at hn
  refine ⟨by simp [tracksOf], by simp [hlt], ?_, ?_⟩
  · rw [Portion.handout, List.length_map, List.length_filterMap_eq_countP, List.countP_eq_length]
    exact hh
  · rw [Handout.endsBurst, hleft, Portion.endsBurst, Bool.and_comm]
    rfl

end Steps

/-! ## One call -/

section Calls

variable {σ S : Type} [HostSample S] {terminals : Nat → Terminal σ} {wait count : Nat}

/-- A call over a number of channels reports the end of a burst for its only step that
ends one, if there is one. -/
structure RxCall.Honest (channels : Nat) (c : RxCall S) : Prop where
  total : ∀ n, c.returned.outcome = .ok n → n = (c.handouts.map (·.count)).sum
  left : ∀ h ∈ c.handouts, h.left.length = channels
  count : c.handouts.countP Handout.endsBurst = c.endsBurst.toNat
  idle : c.endsBurst = true → c.state = .idle

/-- A step that ends a burst ends the call. -/
theorem Gathers.ended {fuel : Nat} {g g' : Stage S σ} {es : List RxEvent}
    (h : Gathers terminals wait count fuel g es g') (hne : g.receiver.channels ≠ [])
    (hl : g.buffers.length = g.receiver.channels.length) :
    g'.receiver.channels.length = g.receiver.channels.length ∧
      (∀ h ∈ handoutsOf es, h.left.length = g.receiver.channels.length) ∧
      g'.total = g.total + ((handoutsOf es).map (·.count)).sum ∧
      g.last.endsBurst.toNat + (handoutsOf es).countP Handout.endsBurst = g'.last.endsBurst.toNat := by
  induction h with
  | stop => simp
  | refused _ ha =>
    have hlen := (align_channels hne ha).1
    dsimp only
    split <;> simpa using hlen
  | burst _ ha =>
    have hlen := (align_channels hne ha).1
    simpa using hlen
  | @more _ g _ r r' p _ _ _ es hw ha hc _ ih =>
    obtain ⟨hlen, hheld⟩ := align_channels hne ha
    have hner : r.channels ≠ [] := by
      rw [← List.length_pos_iff, hlen]
      exact List.length_pos_iff.2 hne
    obtain ⟨hlen', hbuf, hleft, hends⟩ := consume_channels (hheld rfl) hner (hl.trans hlen.symm) hc
    have hne' : r'.channels ≠ [] := by
      rw [← List.length_pos_iff, hlen']
      exact List.length_pos_iff.2 hner
    obtain ⟨h₁, h₂, h₃, h₄⟩ := ih hne' (by rw [hbuf, hl, hlen', hlen])
    -- the call goes on, so the portion before ended no burst
    have hlast : g.last.endsBurst = false := by
      rw [Stage.Wants, Bool.and_eq_true, Bool.and_eq_true, Bool.not_eq_true'] at hw
      rw [Portion.endsBurst, hw.1.2, Bool.and_false]
    refine ⟨by rw [h₁, hlen', hlen], ?_, ?_, ?_⟩
    · rw [handoutsOf_handed, List.forall_mem_cons]
      exact ⟨hleft.trans hlen, fun h hh => (h₂ h hh).trans (hlen'.trans hlen)⟩
    · rw [h₃, handoutsOf_handed, List.map_cons, List.sum_cons]
      exact Nat.add_assoc _ _ _
    · rw [hlast, handoutsOf_handed, List.countP_cons, hends, ← h₄]
      cases p.endsBurst <;> simp [Nat.add_comm]

theorem endOfBurst_report (c : Condition) (rate : Float) (md : RxMetadata) :
    (c.report rate md.reset).endOfBurst = false := by
  cases c with
  | status code tick => cases tick <;> rfl
  | silence | malformed | gap | misaligned => rfl

theorem Receives.honest {r : Receiver} {buffers : List (List S)} {md : RxMetadata} {s : σ} {es : List RxEvent}
    {y : Received S σ} (h : Receives terminals r buffers count wait md s es y) (hpos : 0 < count)
    (hne : r.channels ≠ []) (asked : Nat) :
    y.receiver.channels.length = r.channels.length ∧
      RxCall.Honest r.channels.length
        ⟨asked, es, ⟨y.outcome, y.buffers, y.metadata⟩, y.receiver.state⟩ := by
  cases h with
  | misuse => exact ⟨rfl, by simp, by simp [RxCall.handouts], rfl, by simp [RxCall.endsBurst]⟩
  | @told c =>
    have he := endOfBurst_report c r.rate md
    exact ⟨rfl, by simp [RxCall.handouts], by simp [RxCall.handouts], by simp [RxCall.handouts, RxCall.endsBurst, he],
      by simp [RxCall.endsBurst, he]⟩
  | unseen hc | seen hc | emptied hc => omega
  | @refused c r' _ _ _ ha =>
    have he := endOfBurst_report c r'.rate md
    exact ⟨(align_channels hne ha).1, by simp [RxCall.handouts], by simp [RxCall.handouts],
      by simp [RxCall.handouts, RxCall.endsBurst, he], by simp [RxCall.endsBurst, he]⟩
  | @delivered r₁ r₂ _ _ p _ _ _ _ g _ _ hl ha hc _ hg =>
    obtain ⟨hlen, hheld⟩ := align_channels hne ha
    have hne₁ : r₁.channels ≠ [] := by
      rw [← List.length_pos_iff, hlen]
      exact List.length_pos_iff.2 hne
    obtain ⟨hlen', hbuf, hleft, hends⟩ := consume_channels (hheld rfl) hne₁ (hl.trans hlen.symm) hc
    have hne₂ : r₂.channels ≠ [] := by
      rw [← List.length_pos_iff, hlen']
      exact List.length_pos_iff.2 hne₁
    obtain ⟨h₁, h₂, h₃, h₄⟩ := hg.ended hne₂ (by dsimp only; rw [hbuf, hl, hlen', hlen])
    dsimp only at h₁ h₂ h₃ h₄
    refine ⟨by rw [h₁, hlen', hlen], ?_, ?_, ?_, ?_⟩
    · intro n hn
      cases hn
      exact h₃
    · rw [RxCall.handouts, handoutsOf_handed, List.forall_mem_cons]
      exact ⟨hleft.trans hlen, fun h hh => (h₂ h hh).trans (hlen'.trans hlen)⟩
    · have he : (if p.endsBurst = true then 1 else 0) = p.endsBurst.toNat := by cases p.endsBurst <;> rfl
      rw [RxCall.handouts, handoutsOf_handed, List.countP_cons, hends, he, Nat.add_comm, h₄]
      rfl
    · intro he
      have hb : (g.last.exhausted && g.last.header.endOfBurst) = true := he
      dsimp only
      rw [if_pos hb]

end Calls

/-! ## Runs -/

theorem countP_flatMap_handouts {S : Type} {channels : Nat} {cs : List (RxCall S)} (h : ∀ c ∈ cs, c.Honest channels) :
    (cs.flatMap (·.handouts)).countP Handout.endsBurst = cs.countP RxCall.endsBurst := by
  induction cs with
  | nil => rfl
  | cons c cs ih =>
    obtain ⟨hc, hcs⟩ := List.forall_mem_cons.1 h
    rw [List.flatMap_cons, List.countP_append, hc.count, ih hcs, List.countP_cons]
    cases c.endsBurst <;> simp [Nat.add_comm]

section Runs

variable {S σ : Type} [HostSample S] (terminals : Nat → Terminal σ)

/-- A session with a number of channels, and at least one. -/
def RxSession.Over (channels : Nat) (x : RxSession S σ) : Prop :=
  x.receiver.channels.length = channels ∧ x.receiver.channels ≠ []

/-- A call for samples, in a session with a number of channels. -/
theorem RxSession.Over.recv {channels : Nat} {x : RxSession S σ} (hx : x.Over channels) (buffers : List (List S))
    {count : Nat} (wait : Nat) (onePacket : Bool) (md : RxMetadata) (hpos : 0 < count) :
    (x.step terminals (.recv buffers count wait onePacket md)).Over channels ∧
      ∀ c ∈ x.call? terminals (.recv buffers count wait onePacket md), c.Honest channels := by
  have hR := recv_receives terminals x.receiver buffers count wait onePacket md x.surroundings
  obtain ⟨hlen, hh⟩ := hR.honest hpos hx.2 count
  rw [hx.1] at hlen hh
  have hne : (x.receiver.recv terminals buffers count wait onePacket md x.surroundings).receiver.channels ≠ [] := by
    rw [← List.length_pos_iff, hlen, ← hx.1]
    exact List.length_pos_iff.2 hx.2
  refine ⟨⟨hlen, hne⟩, fun c hc => ?_⟩
  cases hc
  exact hh

theorem RxSession.Over.step {channels : Nat} {x : RxSession S σ} (hx : x.Over channels) {a : RxAction S σ}
    (ha : a.Asks) : (x.step terminals a).Over channels ∧ ∀ c ∈ x.call? terminals a, c.Honest channels := by
  cases hc : x.call? terminals a with
  | none =>
    obtain ⟨state, hs⟩ := receiver_of_no_call terminals hc
    refine ⟨?_, by simp⟩
    rw [Over, hs]
    exact hx
  | some c =>
    cases a with
    | issue | elapse => cases hc
    | recv buffers count wait onePacket md =>
      obtain ⟨h₁, h₂⟩ := hx.recv terminals buffers wait onePacket md ha
      exact ⟨h₁, hc ▸ h₂⟩

end Runs

/-- Over any links, in calls for samples: the calls that report the end of a burst are as
many as the steps that use up a packet of the first channel that ends a burst together
with the packets of all other channels. Each of these steps is reported by its own call,
which leaves the stream idle. With one channel these are all the packets that end a
burst and are used up. -/
theorem end_of_burst_reported {S σ : Type} [HostSample S] (terminals : Nat → Terminal σ) {sizes : List Nat}
    {format : WireFormat} {rate : Float} {packetSamples : Nat} {r : Receiver}
    (hr : Receiver.new sizes format rate packetSamples = .ok r) (s : σ) (as : List (RxAction S σ))
    (hask : ∀ a ∈ as, a.Asks) :
    let calls := RxSession.calls terminals ⟨r, s, []⟩ as
    (∀ c ∈ calls, (∀ n, c.returned.outcome = .ok n → n = (c.handouts.map (·.count)).sum) ∧
      (∀ h ∈ c.handouts, h.left.length = sizes.length) ∧
      c.handouts.countP (fun h => h.finishes && h.left.all (· == 0)) = c.endsBurst.toNat ∧
      (c.endsBurst = true → c.state = .idle)) ∧
    calls.countP RxCall.endsBurst =
      (calls.flatMap (·.handouts)).countP (fun h => h.finishes && h.left.all (· == 0)) ∧
    (sizes.length = 1 → calls.countP RxCall.endsBurst = (calls.flatMap (·.handouts)).countP Handout.finishes) := by
  intro calls
  obtain ⟨hne, rfl⟩ := Receiver.eq_of_new hr
  have hx : RxSession.Over (S := S) sizes.length
      ⟨{ channels := sizes.map fun _ => {}, format, rate, packetSamples }, s, []⟩ := by
    exact ⟨List.length_map _, by simpa using hne⟩
  have hh : ∀ c ∈ calls, c.Honest sizes.length :=
    RxSession.forall_calls terminals (fun x a ha hx => (hx.step terminals ha).1)
      (fun x a c ha hx hc => (hx.step terminals ha).2 c hc) hx as hask
  have hpos : 0 < sizes.length := List.length_pos_iff.2 hne
  -- with samples left nowhere there are none on the first channel
  have he : ∀ h : Handout, h.left.length = sizes.length →
      (h.finishes && h.left.all (· == 0)) = h.endsBurst := by
    intro h hl
    obtain ⟨n, ns, hn⟩ := List.exists_cons_of_length_pos (hl ▸ hpos)
    rw [Handout.finishes, Handout.endsBurst, hn, Bool.eq_iff_iff]
    simp
    tauto
  have hcount : ∀ hs : List Handout, (∀ h ∈ hs, h.left.length = sizes.length) →
      hs.countP (fun h => h.finishes && h.left.all (· == 0)) = hs.countP Handout.endsBurst := fun hs hl =>
    List.countP_congr fun h hm => by rw [he h (hl h hm)]
  have hall : ∀ h ∈ calls.flatMap (·.handouts), h.left.length = sizes.length := by
    intro h hm
    obtain ⟨c, hc, hm⟩ := List.mem_flatMap.1 hm
    exact (hh c hc).left h hm
  refine ⟨fun c hc => ⟨(hh c hc).total, (hh c hc).left, ?_, (hh c hc).idle⟩, ?_, fun h1 => ?_⟩
  · rw [hcount _ (hh c hc).left, (hh c hc).count]
  · rw [hcount _ hall, countP_flatMap_handouts hh]
  · rw [← countP_flatMap_handouts hh]
    apply List.countP_congr
    intro h hm
    rw [Handout.endsBurst_of_single ((hall h hm).trans h1)]

/-- The first channel ends its burst two samples before the second. The packet that says
so is used up by a step that leaves samples on the second channel, and no call reports
it. -/
theorem end_of_burst_reported_lost :
    let packet (startOfBurst endOfBurst : Bool) (sequence : UInt16) (tick : UInt64) (xs : List (Iq Int16)) : Bytes :=
      DataPacket.bytes .sc16 { hasTime := true, startOfBurst, endOfBurst, sequence, timestamp := tick } xs
    let links := [
      [packet true false 0 0 [⟨0, 0⟩, ⟨1, 0⟩], packet false true 1 2 []],
      [packet true false 0 0 [⟨0, 1⟩, ⟨1, 1⟩], packet false false 1 2 [⟨2, 1⟩, ⟨3, 1⟩], packet false true 2 4 []]]
    let r : Receiver := { channels := [{}, {}], format := .sc16, rate := 1, packetSamples := 8 }
    let as := [4, 4].map fun n =>
      RxAction.recv [List.replicate 4 ⟨0, 0⟩, List.replicate 4 ⟨0, 0⟩] n 0 false {}
    let calls := RxSession.calls (S := Iq Int16) Terminal.scripted ⟨r, links, []⟩ as
    Receiver.new [64, 64] .sc16 1 8 = .ok r ∧ (∀ a ∈ as, a.Asks) ∧
      calls.countP RxCall.endsBurst =
        (calls.flatMap (·.handouts)).countP (fun h => h.finishes && h.left.all (· == 0)) ∧
      (calls.flatMap (·.handouts)).countP Handout.finishes = 1 ∧ calls.countP RxCall.endsBurst = 0 ∧
      calls.map (fun c => (c.returned.outcome.toOption, c.returned.metadata.code)) =
        [(some 2, .none), (some 0, .timeout)] := by
  intro packet links r as calls
  have hr : Receiver.new [64, 64] .sc16 1 8 = .ok r := rfl
  have hask : ∀ a ∈ as, a.Asks := by simp [as, RxAction.Asks]
  exact ⟨hr, hask, (end_of_burst_reported Terminal.scripted hr links as hask).2.1, by decide +kernel, by decide +kernel,
    by decide +kernel⟩

end RadioStream
