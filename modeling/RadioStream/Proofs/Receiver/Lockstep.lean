import RadioStream.Proofs.Link
import RadioStream.Proofs.Receiver.Lossless
/-!
# Channels in lockstep

The links of a transmitter carry packets with the same outlines on every channel. A
receiver takes them in step: `InStep` says that a channel has finished `m` packets
of the plan and `o` samples of the next one, and every step keeps the channels at the
same place. So no packet is let go, and what is missing is only what was not sent
yet.
-/

namespace RadioStream

/-- The frames are data packets with the outlines of a plan. -/
def Carries (format : WireFormat) (plan : List Outline) (fs : List Bytes) : Prop :=
  fs.map (fun f => (DataPacket.ofFrame? format f).map DataPacket.outline) = plan.map some

/-- The packets of a plan are numbered one after the other. -/
def Numbered (plan : List Outline) : Prop := plan.IsChain fun o o' => o'.header.sequence = o.header.sequence + 1

namespace Carries

variable {format : WireFormat} {plan : List Outline} {fs gs : List Bytes}

theorem length_eq (h : Carries format plan fs) : fs.length = plan.length := by
  have := congrArg List.length h
  rwa [List.length_map, List.length_map] at this

theorem mono (h : Carries format plan fs) (hp : gs <+: fs) : Carries format (plan.take gs.length) gs := by
  obtain ⟨hs, rfl⟩ := hp
  rw [Carries, List.map_append] at h
  have := congrArg (List.take gs.length) h
  rwa [List.take_left' (List.length_map _), ← List.map_take] at this

theorem append {plan' : List Outline} (h : Carries format plan fs) (h' : Carries format plan' gs) :
    Carries format (plan ++ plan') (fs ++ gs) := by
  rw [Carries, List.map_append, List.map_append, h, h']

theorem outlines (h : Carries format plan fs) : (packetsIn format fs).map DataPacket.outline = plan := by
  induction fs generalizing plan with
  | nil =>
    cases plan with
    | nil => rfl
    | cons o plan => cases h
  | cons f fs ih =>
    cases plan with
    | nil => cases h
    | cons o plan =>
      obtain ⟨hf, hr⟩ := List.cons.inj h
      obtain ⟨p, hp, rfl⟩ := Option.map_eq_some_iff.1 hf
      rw [packetsIn, List.filterMap_cons_some hp, ← packetsIn, List.map_cons, ih hr]

theorem data (h : Carries format plan fs) {f : Bytes} (hf : f ∈ fs) :
    ∃ p, DataPacket.ofFrame? format f = some p := by
  have hm : (DataPacket.ofFrame? format f).map DataPacket.outline ∈ plan.map some := h ▸ List.mem_map_of_mem hf
  obtain ⟨o, -, ho⟩ := List.mem_map.1 hm
  obtain ⟨p, hp, -⟩ := Option.map_eq_some_iff.1 ho.symm
  exact ⟨p, hp⟩

theorem incoming (h : Carries format plan fs) {f : Bytes} (hf : f ∈ fs) :
    ∃ g n, Incoming.ofFrame format f = .data g n := by
  obtain ⟨p, hp⟩ := h.data hf
  exact ⟨p.header, p.samples.length, Incoming.ofFrame_eq_data_iff.2 ⟨p.samples, hp, rfl⟩⟩

theorem consecutive (h : Carries format plan fs) (hn : Numbered plan) : Consecutive (packetsIn format fs) := by
  rw [Numbered, ← h.outlines, List.isChain_map] at hn
  exact hn

end Carries

/-- The channel has finished `m` packets and handed out `o` samples of the next one. -/
def Track.At (m o : Nat) (t : Track) : Prop :=
  match t.channel.held with
  | some h => t.taken.length = m + 1 ∧ h.offset = o
  | none => t.taken.length = m ∧ o = 0

/-- A track that has lost nothing of a plan and has come to a place in it. -/
structure InStep (format : WireFormat) (plan : List Outline) (m o : Nat) (t : Track) : Prop where
  sound : t.Sound format
  lossless : t.Lossless format
  log : ∃ fs, t.sent = some fs ∧ t.taken <+: fs ∧ Carries format plan fs
  place : t.At m o

namespace InStep

variable {format : WireFormat} {plan : List Outline} {m o : Nat} {t t' : Track}

theorem taken (h : InStep format plan m o t) : Carries format (plan.take t.taken.length) t.taken := by
  obtain ⟨fs, -, hp, hc⟩ := h.log
  exact hc.mono hp

/-- The packet that a channel holds is the next one of the plan. -/
theorem of_held (h : InStep format plan m o t) {g : Held} (hg : t.channel.held = some g) :
    ∃ out, plan[m]? = some out ∧ g.header = out.header ∧ g.samples = out.count ∧ g.offset = o ∧ o ≤ out.count := by
  have hplace := h.place
  rw [Track.At, hg] at hplace
  obtain ⟨hlen, hoff⟩ := hplace
  obtain ⟨p, hp, ho⟩ := h.sound.held g hg
  have hl := h.taken.outlines
  have hlast : ((packetsIn format t.taken).map DataPacket.outline).getLast? = some p.outline := by
    rw [List.getLast?_map, hp, Option.map_some]
  rw [hl, hlen] at hlast
  have hle : m + 1 ≤ plan.length := by
    have := h.taken.length_eq
    rw [hlen, List.length_take] at this
    omega
  have hm : plan[m]? = some p.outline := by
    rw [List.getLast?_take, if_neg (Nat.succ_ne_zero m), Nat.add_sub_cancel, List.getElem?_eq_getElem hle,
      Option.some_or] at hlast
    rw [List.getElem?_eq_getElem hle, hlast]
  have hle' := ho.offset
  rw [hoff, ho.samples] at hle'
  exact ⟨p.outline, hm, ho.header, ho.samples, hoff, hle'⟩

/-- A channel that holds nothing has finished its packets. -/
theorem of_not_held (h : InStep format plan m o t) (hn : t.channel.held = none) : t.taken.length = m ∧ o = 0 := by
  have hplace := h.place
  rwa [Track.At, hn] at hplace

/-- Bringing in a packet leaves the channel where it is. There is one unless the plan
is done. -/
theorem fetched (hn : Numbered plan) {k : Option Condition} (hf : Fetched format t k t')
    (h : InStep format plan m o t) :
    InStep format plan m o t' ∧ ∀ c ∈ k, c = .silence ∧ m = plan.length := by
  obtain ⟨fs, hsent, hp, hc⟩ := h.log
  have hsent' : t'.sent = some fs := hf.sent ▸ hsent
  have hsound := hf.sound h.sound
  have hlossless := hf.lossless h.lossless
  cases hf with
  | kept => exact ⟨h, by simp⟩
  | silence hnone hs =>
    -- no frame waits, so all that was sent is taken
    refine ⟨h, fun c hk => ?_⟩
    cases hk
    obtain ⟨hm, -⟩ := h.of_not_held hnone
    have : t.taken = fs := hs fs hsent
    exact ⟨rfl, by rw [← hm, this, hc.length_eq]⟩
  | @malformed frame _ ha hi =>
    obtain ⟨g, n, hd⟩ := hc.incoming ((ha fs hsent).subset (List.mem_concat_self))
    rw [hi] at hd
    cases hd
  | @status frame code tick _ ha hi =>
    obtain ⟨g, n, hd⟩ := hc.incoming ((ha fs hsent).subset (List.mem_concat_self))
    rw [hi] at hd
    cases hd
  | @data f g n hnone ha hi =>
    obtain ⟨hlen, rfl⟩ := h.of_not_held hnone
    -- the packet follows the last one of the plan, so its number is the one expected
    have hp' : (t.hold f g n).taken <+: fs := ha fs hsent
    have hexp : t.channel.expected.all (· == g.sequence) = true :=
      h.sound.expects hi ((hc.consecutive hn).mono (packetsIn_mono format hp'))
    refine ⟨⟨hsound, hlossless, ⟨fs, hsent', hp', hc⟩, ?_⟩, by rw [if_pos hexp]; simp⟩
    show (t.taken ++ [f.payload]).length = m + 1 ∧ 0 = 0
    rw [List.length_append, hlen]
    exact ⟨rfl, rfl⟩

/-- Channels at the same place that hold packets are at the same tick. -/
theorem tick (h : InStep format plan m o t) (hh : t.channel.held.isSome) :
    t.tick? = plan[m]?.bind fun out => if out.header.hasTime then some (out.header.timestamp.toNat + o) else none := by
  obtain ⟨g, hg⟩ := Option.isSome_iff_exists.1 hh
  obtain ⟨out, hout, hheader, -, hoff, -⟩ := h.of_held hg
  rw [Track.tick?, hg, hout, Option.bind_some, Option.bind_some, Held.tick?, hheader, hoff]

/-- Handing out samples of a packet goes on in it, or to the next one. -/
theorem advance (h : InStep format plan m o t) {g : Held} (hg : t.channel.held = some g) {n : Nat}
    (hn : n ≤ g.remaining) {out : Outline} (hout : plan[m]? = some out) :
    InStep format plan (if o + n = out.count then m + 1 else m) (if o + n = out.count then 0 else o + n)
      (t.advance format n) := by
  obtain ⟨out', hout', hheader, hsamples, hoff, hle⟩ := h.of_held hg
  rw [hout] at hout'
  cases hout'
  have hroom : ∀ g ∈ t.channel.held, n ≤ g.remaining := fun g' hg' => by
    rw [hg] at hg'
    cases hg'
    exact hn
  obtain ⟨fs, hsent, hp, hc⟩ := h.log
  refine ⟨h.sound.advance hroom, h.lossless.advance h.sound hroom, ⟨fs, ?_, ?_, hc⟩, ?_⟩
  · rw [Track.sent_advance, hsent]
  · rw [Track.taken_advance]
    exact hp
  · have hplace := h.place
    rw [Track.At, hg] at hplace
    have hrem : ({ g with offset := g.offset + n } : Held).remaining = out.count - (o + n) := by
      rw [Held.remaining, hsamples, hoff]
    rw [Held.remaining, hsamples, hoff] at hn
    unfold Track.advance Track.At
    rw [hg]
    dsimp only
    rw [hrem]
    by_cases hz : o + n = out.count
    · rw [if_pos (by omega), if_pos hz, if_pos hz]
      exact ⟨hplace.1, rfl⟩
    · rw [if_neg (by omega), if_neg hz, if_neg hz]
      exact ⟨hplace.1, by rw [hoff]⟩

end InStep

section Lockstep

variable {format : WireFormat} {plan : List Outline} {m o : Nat} {ts : List Track}

/-- Steps leave the channels where they are, and meet no condition unless the plan is
done. -/
theorem inStep_steps (hn : Numbered plan) :
    StepInvariant format (fun _ => True) (fun ts => ∀ t ∈ ts, InStep format plan m o t)
      (fun c => c = .silence ∧ m = plan.length) where
  closed _ _ := trivial
  step := by
    rintro ts k ts' hs - hi
    have hf := hs.fetched_of_even fun hh => ⟨_, fun t ht => (hi t ht).tick (hh t ht)⟩
    refine ⟨fun t' ht' => ?_, fun c hc => ?_⟩
    · rcases hf.exists_mem ht' with ⟨t, ht, rfl | ⟨k, hk⟩⟩
      · exact hi t' ht
      · exact ((hi t ht).fetched hn hk).1
    · cases hc
      obtain ⟨t, ht, t', ht', h⟩ := hf.condition
      exact ((hi t ht).fetched hn h).2 c rfl

/-- The next packet of the plan is the one that channels hold. -/
theorem exists_next (ha : AllHeld ts) (hne : ts ≠ []) (hi : ∀ t ∈ ts, InStep format plan m o t) :
    ∃ out, plan[m]? = some out := by
  obtain ⟨t, ht⟩ := List.exists_mem_of_ne_nil ts hne
  obtain ⟨g, hg⟩ := Option.isSome_iff_exists.1 (ha t ht)
  obtain ⟨out, hout, -⟩ := (hi t ht).of_held hg
  exact ⟨out, hout⟩

theorem inStep_advance (ha : AllHeld ts) {n : Nat} (hroom : Room n ts) {out : Outline} (hout : plan[m]? = some out)
    (hi : ∀ t ∈ ts, InStep format plan m o t) :
    ∀ t ∈ ts.map (Track.advance format n), InStep format plan (if o + n = out.count then m + 1 else m)
      (if o + n = out.count then 0 else o + n) t := by
  intro t' ht'
  obtain ⟨t, ht, rfl⟩ := List.mem_map.1 ht'
  obtain ⟨g, hg⟩ := Option.isSome_iff_exists.1 (ha t ht)
  exact (hi t ht).advance hg (hroom t ht g hg) hout

/-- The channels stay in lockstep, and nothing but silence is met. -/
theorem lockstep_invariant (format : WireFormat) (hn : Numbered plan) :
    Invariant format (fun _ => True) (fun ts => ts ≠ [] ∧ ∃ m o, ∀ t ∈ ts, InStep format plan m o t)
      (fun c => c = .silence) where
  closed _ _ := trivial
  step := by
    rintro ts k ts' hs - ⟨hne, m, o, hi⟩
    obtain ⟨hi', hk⟩ := (inStep_steps hn).step hs (fun _ _ => trivial) hi
    exact ⟨⟨hs.ne_nil hne, m, o, hi'⟩, fun c hc => (hk c hc).1⟩
  advance := by
    rintro ts n ha hroom - ⟨hne, m, o, hi⟩
    obtain ⟨out, hout⟩ := exists_next ha.held hne hi
    exact ⟨by simpa using hne, _, _, inStep_advance ha.held hroom hout hi⟩

end Lockstep

/-! ## What was handed out -/

theorem length_samplesOf (ps : List DataPacket) :
    (samplesOf ps).length = ((ps.map DataPacket.outline).map (·.count)).sum := by
  rw [samplesOf, List.length_flatMap, List.map_map]
  rfl

/-- The samples of the plan up to a place. -/
def reached (plan : List Outline) (m o : Nat) : Nat := ((plan.take m).map (·.count)).sum + o

namespace InStep

variable {format : WireFormat} {plan : List Outline} {m o : Nat} {t t' : Track}

/-- Channels at the same place have handed out the same number of samples. -/
theorem length_total (h : InStep format plan m o t) : t.total.length = reached plan m o := by
  have hl := congrArg List.length h.lossless
  rw [List.length_append, length_samplesOf, h.taken.outlines] at hl
  cases hh : t.channel.held with
  | none =>
    obtain ⟨hlen, rfl⟩ := h.of_not_held hh
    rw [Track.unread_of_not_held hh, hlen] at hl
    exact hl
  | some g =>
    obtain ⟨out, hout, -, hsamples, hoff, hle⟩ := h.of_held hh
    have hplace := h.place
    rw [Track.At, hh] at hplace
    rw [h.sound.length_unread hh, Held.remaining, hsamples, hoff, hplace.1, List.take_add_one, hout, List.map_append,
      List.sum_append] at hl
    simp only [Option.toList, List.map_cons, List.map_nil, List.sum_cons, List.sum_nil] at hl
    rw [reached]
    omega

/-- What was handed out is the begin of what was sent. -/
theorem total_sent (h : InStep format plan m o t) :
    ∃ fs, t.sent = some fs ∧ t.total <+: samplesOf (packetsIn format fs) := by
  obtain ⟨fs, hsent, hp, -⟩ := h.log
  refine ⟨fs, hsent, List.IsPrefix.trans ?_ (samplesOf_mono (packetsIn_mono format hp))⟩
  exact ⟨_, h.lossless⟩

/-- More frames with packets of the plan may be sent. -/
theorem post (h : InStep format plan m o t) {plan' : List Outline} {fs : List Bytes} (hfs : Carries format plan' fs) :
    InStep format (plan ++ plan') m o (t.post fs) where
  sound := h.sound.post fs
  lossless := h.lossless
  log := by
    obtain ⟨gs, hsent, hp, hc⟩ := h.log
    exact ⟨gs ++ fs, by rw [Track.post, hsent]; rfl, hp.trans (List.prefix_append _ _), hc.append hfs⟩
  place := h.place

theorem turn (h : InStep format plan m o t) : InStep format plan m o t.turn where
  sound := h.sound.turn
  lossless := h.lossless.turn
  log := h.log
  place := h.place

end InStep

end RadioStream
