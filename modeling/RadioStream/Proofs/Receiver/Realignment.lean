import Mathlib.Order.Bounds.Basic
import RadioStream.Proofs.Receiver.Session
/-!
# Realignment

Channels that have come apart are brought together again by letting go of packets. Each
round lets go of those that are behind the newest packet held, and no earlier packet can be
at a tick that all channels come to, since the channel with the newest packet is past it.

`Upcoming` is a packet with the tick of its next sample, and `Receiver.upcoming` lists those
that a channel holds or is still to take. `Trimmed` is what the rounds keep of these lists,
and `align_least` reads the result off it: the channels meet at the least tick that occurs on
all of them.
-/

namespace RadioStream

/-! ## What is to come -/

/-- A data packet with the tick of the next sample to hand out. -/
structure Upcoming where
  tick : Nat
  packet : DataPacket

/-- The packet held, as far as it has not been handed out. -/
def Held.upcoming (format : WireFormat) (h : Held) : Upcoming :=
  ⟨h.header.timestamp.toNat + h.offset, ⟨h.header, h.unread format⟩⟩

def DataPacket.upcoming (p : DataPacket) : Upcoming := ⟨p.start, p⟩

/-- The packets that a channel holds or finds in frames that it is still to take. -/
def RxChannel.upcoming (format : WireFormat) (c : RxChannel) (frames : List Bytes) : List Upcoming :=
  c.held.toList.map (Held.upcoming format) ++ (packetsIn format frames).map DataPacket.upcoming

/-- The packets that a channel of a receiver holds or is still to take. -/
def Receiver.upcoming (r : Receiver) (frames : Nat → List Bytes) (i : Nat) : List Upcoming :=
  (r.channels[i]?.map fun c => c.upcoming r.format (frames i)).getD []

/-- Packets with times, and later ones have later ticks. -/
structure Rising (xs : List Upcoming) : Prop where
  timed : ∀ x ∈ xs, x.packet.header.hasTime = true
  ordered : xs.Pairwise fun x y => x.tick < y.tick

theorem rising_iff {xs : List Upcoming} :
    Rising xs ↔ (∀ x ∈ xs, x.packet.header.hasTime = true) ∧ xs.Pairwise fun x y => x.tick < y.tick :=
  ⟨fun h => ⟨h.timed, h.ordered⟩, fun h => ⟨h.1, h.2⟩⟩

instance (xs : List Upcoming) : Decidable (Rising xs) := decidable_of_iff _ rising_iff.symm

/-- A tick that occurs in each of `n` lists. -/
def Shared (n : Nat) (lists : Nat → List Upcoming) (tick : Nat) : Prop := ∀ i < n, ∃ x ∈ lists i, x.tick = tick

/-- The numbers go on from the one that is expected. -/
def GoesOn : Option UInt16 → List DataPacket → Prop
  | _, [] => True
  | expected, p :: ps => expected.all (· == p.header.sequence) = true ∧ GoesOn (some (p.header.sequence + 1)) ps

theorem Rising.tail {past rest : List Upcoming} (h : Rising (past ++ rest)) : Rising rest :=
  ⟨fun x hx => h.timed x (List.mem_append_right _ hx), (List.pairwise_append.1 h.ordered).2.1⟩

/-- The first tick is the least. -/
theorem Rising.head_le {x y : Upcoming} {xs : List Upcoming} (h : Rising (x :: xs)) (hy : y ∈ x :: xs) :
    x.tick ≤ y.tick := by
  rcases List.mem_cons.1 hy with rfl | hy
  · exact Nat.le_refl _
  · exact Nat.le_of_lt ((List.pairwise_cons.1 h.ordered).1 y hy)

theorem Held.tick?_eq {format : WireFormat} {h : Held} (ht : h.header.hasTime = true) :
    h.tick? = some (h.upcoming format).tick := by
  rw [Held.tick?, if_pos ht, Held.upcoming]

/-! ## Steps of the channels -/

namespace Track

variable {format : WireFormat} {fs : List Bytes} {t t' : Track} {k : Option Condition}

/-- What is to come on the channel of a track, where all frames of the link are known. -/
def upcoming (format : WireFormat) (fs : List Bytes) (t : Track) : List Upcoming :=
  t.channel.upcoming format (fs.drop t.taken.length)

theorem upcoming_of_held {h : Held} (hh : t.channel.held = some h) :
    t.upcoming format fs =
      h.upcoming format :: (packetsIn format (fs.drop t.taken.length)).map DataPacket.upcoming := by
  rw [upcoming, RxChannel.upcoming, hh]
  rfl

theorem upcoming_of_not_held (hh : t.channel.held = none) :
    t.upcoming format fs = (packetsIn format (fs.drop t.taken.length)).map DataPacket.upcoming := by
  rw [upcoming, RxChannel.upcoming, hh]
  rfl

/-- A frame that was taken is the next of those that were not. -/
theorem drop_taken {frame : Bytes} {taken : List Bytes} (h : taken ++ [frame] <+: fs) :
    fs.drop taken.length = frame :: fs.drop (taken ++ [frame]).length := by
  obtain ⟨rest, rfl⟩ := h
  rw [List.drop_left, List.append_assoc, List.drop_left, List.singleton_append]

/-- Frames without a data packet bring none. -/
theorem upcoming_pass {frame : Bytes} (hf : DataPacket.ofFrame? format frame = none) (hh : t.channel.held = none)
    (ht : (t.pass frame).taken <+: fs) : (t.pass frame).upcoming format fs = t.upcoming format fs := by
  rw [upcoming_of_not_held hh, upcoming_of_not_held (t := t.pass frame) hh, drop_taken ht, packetsIn, packetsIn,
    List.filterMap_cons_none hf]
  rfl

/-- A packet that is brought in was to come, and is still. -/
theorem upcoming_fetched (hf : Fetched format t k t') (ht : t'.taken <+: fs) :
    t'.upcoming format fs = t.upcoming format fs := by
  cases hf with
  | kept | silence => rfl
  | malformed hn _ hi => exact upcoming_pass (DataPacket.ofFrame?_eq_none (by simp [hi])) hn ht
  | status hn _ hi => exact upcoming_pass (DataPacket.ofFrame?_eq_none (by simp [hi])) hn ht
  | @data f h n hn _ hi =>
    obtain ⟨p, hp, rfl, ho⟩ := Held.exists_of hi
    have hu : Held.upcoming format { frame := f, header := p.header, samples := n } = p.upcoming := by
      rw [Held.upcoming, ho.unread]
      rfl
    rw [upcoming_of_not_held hn, upcoming_of_held (h := { frame := f, header := p.header, samples := n }) rfl, hu,
      drop_taken ht, packetsIn, packetsIn, List.filterMap_cons_some hp]
    rfl

/-- The packet that is let go is the first of those to come. -/
theorem upcoming_drop (format : WireFormat) (fs : List Bytes) (t : Track) (test : Held → Bool) :
    (t.drop test).upcoming format fs = t.upcoming format fs ∨
      ∃ h, t.channel.held = some h ∧ test h = true ∧
        t.upcoming format fs = h.upcoming format :: (t.drop test).upcoming format fs := by
  unfold drop
  by_cases hd : t.channel.held.any test = true
  · rw [if_pos hd]
    obtain ⟨h, hh, ht⟩ := (Option.any_eq_true _ _).1 hd
    exact .inr ⟨h, hh, ht, upcoming_of_held hh⟩
  · rw [if_neg hd]
    exact .inl rfl

end Track

/-! ## What the rounds keep -/

theorem FetchedAll.at_index {format : WireFormat} {ts ts' : List Track} {k : Option Condition}
    (hf : FetchedAll format ts k ts') {i : Nat} {t' : Track} (ht' : ts'[i]? = some t') :
    ∃ t, ts[i]? = some t ∧ (t' = t ∨ ∃ k, Fetched format t k t') := by
  induction hf generalizing i with
  | nil => cases ht'
  | @stop t u ts k h =>
    cases i with
    | zero =>
      cases ht'
      exact ⟨t, rfl, .inr ⟨_, h⟩⟩
    | succ i => exact ⟨t', ht', .inl rfl⟩
  | @next t u ts us k h _ ih =>
    cases i with
    | zero =>
      cases ht'
      exact ⟨t, rfl, .inr ⟨_, h⟩⟩
    | succ i => exact ih ht'

theorem FetchedAll.condition_at {format : WireFormat} {ts ts' : List Track} {c : Condition}
    (hf : FetchedAll format ts (some c) ts') :
    ∃ (i : Nat) (t t' : Track), ts[i]? = some t ∧ ts'[i]? = some t' ∧ Fetched format t (some c) t' := by
  generalize hk : some c = k at hf
  induction hf with
  | nil => cases hk
  | stop h =>
    cases hk
    exact ⟨0, _, _, rfl, rfl, h⟩
  | next _ _ ih =>
    obtain ⟨i, t, t', ht, ht', h⟩ := ih hk
    exact ⟨i + 1, t, t', ht, ht', h⟩

/-- The frames taken are the first of those of each link. -/
def Fed (frames : Nat → List Bytes) (ts : List Track) : Prop := ∀ i t, ts[i]? = some t → t.taken <+: frames i

theorem Fed.back {frames : Nat → List Bytes} {ts ts' : List Track} (h : Fed frames ts') (hg : Grows ts ts') :
    Fed frames ts := by
  intro i t ht
  obtain ⟨t', ht', hp⟩ := hg.at_index ht
  exact hp.trans (h i t' ht')

/-- Of the packets that were to come, only such have gone as are behind every shared tick. -/
def Trimmed (format : WireFormat) (frames : Nat → List Bytes) (lists : Nat → List Upcoming) (ts : List Track) : Prop :=
  ∀ i t, ts[i]? = some t → ∃ past, lists i = past ++ t.upcoming format (frames i) ∧
    ∀ x ∈ past, ∀ tick, Shared ts.length lists tick → x.tick < tick

section Rounds

variable {format : WireFormat} {frames : Nat → List Bytes} {lists : Nat → List Upcoming} {ts ts' : List Track}

namespace Trimmed

theorem fetch (h : Trimmed format frames lists ts) {k : Option Condition} (hf : FetchedAll format ts k ts')
    (hfed : Fed frames ts') : Trimmed format frames lists ts' := by
  intro i t' ht'
  obtain ⟨t, ht, hc⟩ := hf.at_index ht'
  obtain ⟨past, he, hpast⟩ := h i t ht
  have hu : t'.upcoming format (frames i) = t.upcoming format (frames i) := by
    rcases hc with rfl | ⟨k, hk⟩
    · rfl
    · exact Track.upcoming_fetched hk (hfed i t' ht')
  rw [hf.length, hu]
  exact ⟨past, he, hpast⟩

/-- What is left on a channel has later and later ticks. -/
theorem rising (h : Trimmed format frames lists ts) (hrise : ∀ i < ts.length, Rising (lists i)) {i : Nat} {t : Track}
    (ht : ts[i]? = some t) : Rising (t.upcoming format (frames i)) := by
  obtain ⟨past, he, -⟩ := h i t ht
  have hr := hrise i (List.getElem?_eq_some_iff.1 ht).1
  rw [he] at hr
  exact hr.tail

theorem tick_eq (h : Trimmed format frames lists ts) (hrise : ∀ i < ts.length, Rising (lists i)) {i : Nat} {t : Track}
    (ht : ts[i]? = some t) {g : Held} (hg : t.channel.held = some g) : g.tick? = some (g.upcoming format).tick := by
  have hr := h.rising hrise ht
  rw [Track.upcoming_of_held hg] at hr
  exact Held.tick?_eq (hr.timed _ List.mem_cons_self)

/-- A shared tick is still to come on every channel. -/
theorem exists_shared (h : Trimmed format frames lists ts) {tick : Nat} (hs : Shared ts.length lists tick) {i : Nat}
    {t : Track} (ht : ts[i]? = some t) : ∃ x ∈ t.upcoming format (frames i), x.tick = tick := by
  obtain ⟨past, he, hpast⟩ := h i t ht
  obtain ⟨x, hx, hxt⟩ := hs i (List.getElem?_eq_some_iff.1 ht).1
  rw [he] at hx
  rcases List.mem_append.1 hx with hx | hx
  · exact absurd hxt (Nat.ne_of_lt (hpast x hx tick hs))
  · exact ⟨x, hx, hxt⟩

/-- No packet held is past a shared tick. -/
theorem held_le (h : Trimmed format frames lists ts) (hrise : ∀ i < ts.length, Rising (lists i)) {tick : Nat}
    (hs : Shared ts.length lists tick) {i : Nat} {t : Track} (ht : ts[i]? = some t) {g : Held}
    (hg : t.channel.held = some g) : (g.upcoming format).tick ≤ tick := by
  have hr := h.rising hrise ht
  obtain ⟨x, hx, rfl⟩ := h.exists_shared hs ht
  rw [Track.upcoming_of_held hg] at hr hx
  exact hr.head_le hx

/-- The packets that are behind the newest are behind every shared tick. -/
theorem drop (h : Trimmed format frames lists ts) (hrise : ∀ i < ts.length, Rising (lists i)) {newest : Nat}
    (hm : Misaligned newest ts) : Trimmed format frames lists (ts.map (Track.drop (Held.behind newest))) := by
  have hne : ts.map (·.channel) ≠ [] := by
    obtain ⟨t, ht, -⟩ := hm.uneven
    simpa using List.ne_nil_of_mem ht
  obtain ⟨⟨c, hc, hnew⟩, hall⟩ := newestTick_spec hne hm.tick
  have hle : ∀ tick, Shared ts.length lists tick → newest ≤ tick := by
    intro tick hs
    obtain ⟨t, ht, rfl⟩ := List.mem_map.1 hc
    obtain ⟨i, hi⟩ := List.mem_iff_getElem?.1 ht
    obtain ⟨g, hg, hgt⟩ := Option.bind_eq_some_iff.1 hnew
    rw [h.tick_eq hrise hi hg] at hgt
    cases hgt
    exact h.held_le hrise hs hi hg
  intro i t' ht'
  rw [List.getElem?_map, Option.map_eq_some_iff] at ht'
  obtain ⟨t, ht, rfl⟩ := ht'
  obtain ⟨past, he, hpast⟩ := h i t ht
  rw [List.length_map]
  rcases Track.upcoming_drop format (frames i) t (Held.behind newest) with
    hu | ⟨g, hg, hb, hu⟩
  · rw [hu]
    exact ⟨past, he, hpast⟩
  · refine ⟨past ++ [g.upcoming format], by rw [he, hu, List.append_assoc, List.singleton_append], ?_⟩
    intro x hx tick hs
    rcases List.mem_append.1 hx with hx | hx
    · exact hpast x hx tick hs
    · obtain rfl := List.mem_singleton.1 hx
      obtain ⟨tick', hle', hbind⟩ := hall t.channel (List.mem_map_of_mem (List.mem_of_getElem? ht))
      rw [hg, Option.bind_some, h.tick_eq hrise ht hg] at hbind
      cases hbind
      have hne' : (g.upcoming format).tick ≠ newest := by
        intro hx
        rw [Held.behind, h.tick_eq hrise ht hg, hx] at hb
        simp at hb
      exact lt_of_lt_of_le (lt_of_le_of_ne hle' hne') (hle tick hs)

/-- What is at a shared tick is still to come. -/
theorem mem_of_shared (h : Trimmed format frames lists ts) {i : Nat} {t : Track} (ht : ts[i]? = some t) {x : Upcoming}
    (hx : x ∈ lists i) (hs : Shared ts.length lists x.tick) : x ∈ t.upcoming format (frames i) := by
  obtain ⟨past, he, hpast⟩ := h i t ht
  rw [he] at hx
  rcases List.mem_append.1 hx with hx | hx
  · exact absurd (hpast x hx x.tick hs) (Nat.lt_irrefl _)
  · exact hx

/-- Of a channel whose first packet is at a shared tick, those before it have gone. -/
theorem upcoming_eq_filter (h : Trimmed format frames lists ts) (hrise : ∀ i < ts.length, Rising (lists i))
    {i : Nat} {t : Track} (ht : ts[i]? = some t) {x : Upcoming} {rest : List Upcoming}
    (hx : t.upcoming format (frames i) = x :: rest) (hs : Shared ts.length lists x.tick) :
    t.upcoming format (frames i) = (lists i).filter (x.tick ≤ ·.tick) := by
  obtain ⟨past, he, hpast⟩ := h i t ht
  have hr := h.rising hrise ht
  have hgone : past.filter (x.tick ≤ ·.tick) = [] := by
    rw [List.filter_eq_nil_iff]
    intro y hy
    simpa using hpast y hy x.tick hs
  have hkept : (x :: rest).filter (x.tick ≤ ·.tick) = x :: rest := by
    rw [List.filter_eq_self]
    intro y hy
    rw [hx] at hr
    simpa using hr.head_le hy
  rw [he, List.filter_append, hgone, hx, hkept, List.nil_append]

/-- Channels that are aligned have come to the least shared tick. -/
theorem meet (h : Trimmed format frames lists ts) (hrise : ∀ i < ts.length, Rising (lists i)) (hne : ts ≠ [])
    (ha : Aligned ts) :
    ∃ tick, IsLeast {tick | Shared ts.length lists tick} tick ∧ (∀ t ∈ ts, t.tick? = some tick) ∧
      ∀ i t, ts[i]? = some t → t.upcoming format (frames i) = (lists i).filter (tick ≤ ·.tick) := by
  have hheld : ∀ (i : Nat) (t : Track), ts[i]? = some t → ∃ g, t.channel.held = some g ∧
      t.tick? = some (g.upcoming format).tick := by
    intro i t ht
    obtain ⟨g, hg⟩ := Option.isSome_iff_exists.1 (ha.held t (List.mem_of_getElem? ht))
    exact ⟨g, hg, by rw [Track.tick?, hg, Option.bind_some, h.tick_eq hrise ht hg]⟩
  have htimed : ∀ t ∈ ts, t.tick?.isSome := by
    intro t ht
    obtain ⟨i, hi⟩ := List.mem_iff_getElem?.1 ht
    obtain ⟨g, -, hg⟩ := hheld i t hi
    rw [hg]
    rfl
  obtain ⟨tick, htick⟩ := ha.tick htimed
  -- every channel has a packet at the tick, the first of those to come
  have hhead : ∀ (i : Nat) (t : Track), ts[i]? = some t →
      ∃ x rest, t.upcoming format (frames i) = x :: rest ∧ x.tick = tick := by
    intro i t ht
    obtain ⟨g, hg, hgt⟩ := hheld i t ht
    rw [htick t (List.mem_of_getElem? ht)] at hgt
    exact ⟨_, _, Track.upcoming_of_held hg, (Option.some.inj hgt).symm⟩
  have hshared : Shared ts.length lists tick := by
    intro i hi
    have ht := List.getElem?_eq_getElem hi
    obtain ⟨past, he, -⟩ := h i _ ht
    obtain ⟨x, rest, hx, hxt⟩ := hhead i _ ht
    exact ⟨x, by rw [he, hx]; simp, hxt⟩
  refine ⟨tick, ⟨hshared, fun tick' hs => ?_⟩, htick, fun i t ht => ?_⟩
  · have ht := List.getElem?_eq_getElem (List.length_pos_iff.2 hne)
    obtain ⟨g, hg, hgt⟩ := hheld 0 _ ht
    rw [htick _ (List.mem_of_getElem? ht)] at hgt
    cases hgt
    exact h.held_le hrise hs ht hg
  · obtain ⟨x, rest, hx, rfl⟩ := hhead i t ht
    exact h.upcoming_eq_filter hrise ht hx hshared

end Trimmed

/-- Until the channels are given up, nothing at a shared tick is let go. -/
theorem Path.trimmed {ks : List Condition} (hp : Path format ts ks ts') (hk : .misaligned ∉ ks) (hfed : Fed frames ts')
    (hrise : ∀ i < ts.length, Rising (lists i)) (h : Trimmed format frames lists ts) :
    Trimmed format frames lists ts' := by
  induction hp with
  | nil => exact h
  | @cons ts ts₁ ts₂ k ks hs hr ih =>
    rw [List.mem_append, not_or] at hk
    refine ih hk.2 hfed (by rwa [hs.length]) ?_
    cases hs with
    | fetch hf => exact h.fetch hf (hfed.back hr.grows)
    | drop hm => exact h.drop hrise hm
    | giveUp => exact absurd (by simp) hk.1

/-- On links that carry data packets only, an alignment ends for want of a packet, at a gap,
or because it was given up. -/
theorem Path.told {ks : List Condition} (hp : Path format ts ks ts') (hfed : Fed frames ts')
    (hdata : ∀ i < ts.length, ∀ f ∈ frames i, (DataPacket.ofFrame? format f).isSome) :
    ∀ c ∈ ks, c = .silence ∨ c = .gap ∨ c = .misaligned := by
  induction hp with
  | nil => simp
  | @cons ts ts₁ ts₂ k ks hs hr ih =>
    intro c hc
    rcases List.mem_append.1 hc with hc | hc
    · obtain rfl : k = some c := by simpa using hc
      cases hs with
      | giveUp => simp
      | fetch hf =>
        have hfed₁ := hfed.back hr.grows
        -- a frame that was taken is one of the link, and so holds a data packet
        have hpass : ∀ {i : Nat} {t : Track} {frame : Bytes}, ts₁[i]? = some (t.pass frame) →
            DataPacket.ofFrame? format frame ≠ none := by
          intro i t frame hi hn
          have hlt : i < ts.length := by
            rw [← hf.length]
            exact (List.getElem?_eq_some_iff.1 hi).1
          have := hdata i hlt frame ((hfed₁ i _ hi).subset (by simp [Track.pass]))
          rw [hn] at this
          cases this
        obtain ⟨i, t, t', -, hi, h⟩ := hf.condition_at
        generalize hk : some c = k at h
        cases h with
        | kept => cases hk
        | silence =>
          cases hk
          simp
        | malformed _ _ hm => exact absurd (DataPacket.ofFrame?_eq_none (by simp [hm])) (hpass hi)
        | status _ _ hm => exact absurd (DataPacket.ofFrame?_eq_none (by simp [hm])) (hpass hi)
        | data =>
          split at hk
          · cases hk
          · cases hk
            simp
    · exact ih hfed (by rwa [hs.length]) c hc

/-- The packets that a track is still to take go on from the number expected. -/
def Track.Numbered (format : WireFormat) (fs : List Bytes) (t : Track) : Prop :=
  GoesOn t.channel.expected (packetsIn format (fs.drop t.taken.length))

theorem Fetched.numbered {fs : List Bytes} {t t' : Track} {k : Option Condition} (hf : Fetched format t k t')
    (ht : t'.taken <+: fs) (h : t.Numbered format fs) : t'.Numbered format fs ∧ k ≠ some .gap := by
  have hpass : ∀ {frame}, DataPacket.ofFrame? format frame = none → (t.pass frame).taken <+: fs →
      (t.pass frame).Numbered format fs := by
    intro frame hp ht
    rw [Track.Numbered, Track.drop_taken ht, packetsIn, List.filterMap_cons_none hp] at h
    exact h
  cases hf with
  | kept | silence => exact ⟨h, by simp⟩
  | malformed _ _ hi => exact ⟨hpass (DataPacket.ofFrame?_eq_none (by simp [hi])) ht, by simp⟩
  | status _ _ hi => exact ⟨hpass (DataPacket.ofFrame?_eq_none (by simp [hi])) ht, by simp⟩
  | @data f g n _ _ hi =>
    obtain ⟨p, hp, rfl, -⟩ := Held.exists_of hi
    rw [Track.Numbered, Track.drop_taken ht, packetsIn, List.filterMap_cons_some hp] at h
    exact ⟨h.2, by rw [if_pos h.1]; simp⟩

/-- Where the numbers go on there is no gap. -/
theorem Path.not_gap {ks : List Condition} (hp : Path format ts ks ts') (hfed : Fed frames ts')
    (h : ∀ (i : Nat) (t : Track), ts[i]? = some t → t.Numbered format (frames i)) : .gap ∉ ks := by
  induction hp with
  | nil => simp
  | @cons ts ts₁ ts₂ k ks hs hr ih =>
    have hfed₁ := hfed.back hr.grows
    have hdrop : ∀ (test : Held → Bool) (i : Nat) (t : Track), (ts.map (Track.drop test))[i]? = some t →
        t.Numbered format (frames i) := by
      intro test i t' ht'
      rw [List.getElem?_map, Option.map_eq_some_iff] at ht'
      obtain ⟨t, ht, rfl⟩ := ht'
      have he : (t.drop test).channel.expected = t.channel.expected := by
        unfold Track.drop
        split <;> rfl
      rw [Track.Numbered, he, Track.taken_drop]
      exact h i t ht
    rw [List.mem_append, not_or]
    cases hs with
    | fetch hf =>
      refine ⟨?_, ih hfed fun i t' ht' => ?_⟩
      · rw [Option.mem_toList]
        rintro rfl
        obtain ⟨i, t, t', ht, ht', hk⟩ := hf.condition_at
        exact (hk.numbered (hfed₁ i t' ht') (h i t ht)).2 rfl
      · obtain ⟨t, ht, rfl | ⟨k, hk⟩⟩ := hf.at_index ht'
        · exact h i t' ht
        · exact (hk.numbered (hfed₁ i t' ht') (h i t ht)).1
    | drop => exact ⟨by simp, ih hfed (hdrop _)⟩
    | giveUp => exact ⟨by simp, ih hfed (hdrop _)⟩

end Rounds

/-! ## Counting the rounds -/

/-- A number of rounds, in each of which every channel came to a packet and one was
behind. -/
inductive BehindRounds {σ : Type} (terminals : Nat → Terminal σ) (format : WireFormat) (wait : Nat) :
    Nat → List RxChannel → σ → List RxChannel → σ → Prop
  | zero {cs : List RxChannel} {s : σ} : BehindRounds terminals format wait 0 cs s cs s
  | succ {n newest : Nat} {cs cs₁ cs₂ cs₃ : List RxChannel} {s s₁ s₂ s₃ : σ} :
      RxChannel.fetchAll terminals format wait 0 cs s = (none, cs₁, s₁) →
      Receiver.newestTick cs₁ = some newest →
      (∃ c ∈ cs₁, ∃ tick < newest, c.held.bind Held.tick? = some tick) →
      RxChannel.dropWhere terminals (Held.behind newest) 0 cs₁ s₁ = (cs₂, s₂) →
      BehindRounds terminals format wait n cs₂ s₂ cs₃ s₃ → BehindRounds terminals format wait (n + 1) cs s cs₃ s₃

section Counting

variable {σ : Type} {terminals : Nat → Terminal σ} {format : WireFormat} {wait : Nat}

theorem fetch_ne_misaligned (t : Terminal σ) (format : WireFormat) (wait : Nat) (c : RxChannel) (s : σ) :
    (RxChannel.fetch t format wait c s).1 ≠ some .misaligned := by
  unfold RxChannel.fetch
  split
  · simp
  · split
    · simp
    · split
      · simp
      · simp
      · dsimp only
        split <;> simp

theorem fetchAll_ne_misaligned (terminals : Nat → Terminal σ) (format : WireFormat) (wait i : Nat) (cs : List RxChannel)
    (s : σ) :
    (RxChannel.fetchAll terminals format wait i cs s).1 ≠ some .misaligned := by
  induction cs generalizing i s with
  | nil => simp [RxChannel.fetchAll]
  | cons c cs ih =>
    have hc := fetch_ne_misaligned (terminals i) format wait c s
    unfold RxChannel.fetchAll
    split
    · next he =>
      rw [he] at hc
      exact hc
    · exact ih _ _

/-- The channels are given up only after all rounds. -/
theorem alignRounds_misaligned {rounds : Nat} {cs cs' : List RxChannel} {s s' : σ}
    (h : Receiver.alignRounds terminals format wait rounds cs s = (some .misaligned, cs', s')) :
    ∃ cs₁ s₁, BehindRounds terminals format wait rounds cs s cs₁ s₁ ∧
      RxChannel.dropWhere terminals (fun _ => true) 0 cs₁ s₁ = (cs', s') := by
  induction rounds generalizing cs s with
  | zero =>
    refine ⟨cs, s, .zero, ?_⟩
    rw [Receiver.alignRounds] at h
    exact (Prod.mk.inj h).2
  | succ rounds ih =>
    rw [Receiver.alignRounds] at h
    have hf := fetchAll_ne_misaligned terminals format wait 0 cs s
    split at h
    · next he =>
      rw [he] at hf
      exact absurd (Prod.mk.inj h).1 hf
    · next cs₁ s₁ he =>
      split at h
      · cases h
      · next newest hn =>
        split at h
        · next hb =>
          obtain ⟨c, hc, hb⟩ := List.any_eq_true.1 hb
          obtain ⟨g, hg, hb⟩ := (Option.any_eq_true _ _).1 hb
          obtain ⟨tick, hle, ht⟩ := (newestTick_spec (List.ne_nil_of_mem hc) hn).2 c hc
          have hlt : tick < newest := by
            refine lt_of_le_of_ne hle ?_
            rintro rfl
            rw [hg, Option.bind_some] at ht
            simp [Held.behind, ht] at hb
          obtain ⟨cs₂, s₂, hr, hd⟩ := ih h
          exact ⟨cs₂, s₂, .succ he hn ⟨c, hc, tick, hlt, ht⟩ rfl hr, hd⟩
        · cases h

end Counting

/-! ## The least shared tick -/

/-- The frames that a receiver takes from a link to align its channels. -/
def Receiver.alignTaken {σ : Type} (terminals : Nat → Terminal σ) (wait : Nat) (r : Receiver) (s : σ) (i : Nat) :
    List Bytes :=
  (r.align (recording terminals) wait ⟨s, r.channels.map fun _ => []⟩).2.2.taken[i]?.getD []

section Align

variable {σ : Type} {terminals : Nat → Terminal σ} {wait : Nat} {r r' : Receiver} {s s' : σ} {k : Option Condition}

/-- Aligning follows a path of tracks that begin with it. -/
theorem align_path (hne : r.channels ≠ []) (h : r.align terminals wait s = (k, r', s')) :
    ∃ ts', Path r.format (r.channels.map fun c => { channel := c }) k.toList ts' ∧
      r'.channels = ts'.map (·.channel) ∧ r'.format = r.format ∧
      (∀ i, r.alignTaken terminals wait s i = (ts'[i]?.map (·.taken)).getD []) ∧ (k = none → Aligned ts') := by
  have hchannels : r.channels = (r.channels.map fun c => ({ channel := c } : Track)).map (·.channel) := by
    rw [List.map_map]
    exact (List.map_id _).symm
  have htells : (recordedLedger terminals).Tells ((r.channels.map fun c => ({ channel := c } : Track)).map (·.account))
      ⟨s, r.channels.map fun _ => []⟩ := by
    constructor
    · simp [Track.account, Function.comp_def]
    · simp [Track.account]
  obtain ⟨k₁, ts', x, ha, hp, hT, hal⟩ :=
    align_spec (recordedLedger terminals) wait hchannels (by simpa using hne) htells
  have hshown := align_shown (recording_shows terminals) wait r ⟨s, r.channels.map fun _ => []⟩
  rw [ha, Prod.map_apply, Prod.map_apply] at hshown
  obtain ⟨rfl, rfl, rfl⟩ : k₁ = k ∧ _ = r' ∧ x.inner = s' := by
    simpa using hshown.symm.trans h
  refine ⟨ts', hp, rfl, rfl, fun i => ?_, hal⟩
  have htaken : x.taken = (ts'.map (·.account)).map (·.taken) := hT.1
  rw [Receiver.alignTaken, ha]
  dsimp only
  rw [htaken, List.getElem?_map, List.getElem?_map]
  cases ts'[i]? <;> rfl

theorem Receiver.upcoming_eq {frames : Nat → List Bytes} {i : Nat} {c : RxChannel} (hc : r.channels[i]? = some c) :
    r.upcoming frames i = c.upcoming r.format (frames i) := by
  rw [Receiver.upcoming, hc]
  rfl

/-- Before it begins, nothing has gone. -/
theorem trimmed_start (frames : Nat → List Bytes) :
    Trimmed r.format frames (r.upcoming frames) (r.channels.map fun c => { channel := c }) := by
  intro i t ht
  rw [List.getElem?_map, Option.map_eq_some_iff] at ht
  obtain ⟨c, hc, rfl⟩ := ht
  exact ⟨[], Receiver.upcoming_eq hc, by simp⟩

/-- The channels are given up only after all rounds, and each lets its packet go then. -/
theorem align_misaligned (h : r.align terminals wait s = (some .misaligned, r', s')) :
    ∃ cs s₁, BehindRounds terminals r.format wait (4 * r.channels.length) r.channels s cs s₁ ∧
      RxChannel.dropWhere terminals (fun _ => true) 0 cs s₁ = (r'.channels, s') := by
  unfold Receiver.align at h
  dsimp only at h
  rcases ha : Receiver.alignRounds terminals r.format wait (r.channels.length * Receiver.roundsPerChannel)
    r.channels s with ⟨k, cs, s₁⟩
  rw [ha] at h
  cases h
  rw [Nat.mul_comm]
  exact alignRounds_misaligned ha

/-- Where the numbers of all channels go on, none of them reports a gap. -/
theorem align_not_gap {frames : Nat → List Bytes} {ts : List Track}
    (hp : Path r.format (r.channels.map fun c => { channel := c }) k.toList ts) (hfed : Fed frames ts)
    (hnumbers : ∀ i c, r.channels[i]? = some c → GoesOn c.expected (packetsIn r.format (frames i))) :
    k ≠ some .gap := by
  rintro rfl
  refine hp.not_gap hfed (fun i t ht => ?_) List.mem_cons_self
  rw [List.getElem?_map, Option.map_eq_some_iff] at ht
  obtain ⟨c, hc, rfl⟩ := ht
  exact hnumbers i c hc

end Align

/-- `frames` lists what waits on each link and what comes in meanwhile. If these are data
packets with later and later ticks, channels that were aligned are at the least tick that
occurs on all of them, and the packets let go are those behind it. An alignment that ends
with a timeout has let go of no packet at a tick that occurs on all channels. The channels
are given up only after four rounds for each of them, in all of which a packet was behind.
Where the numbers go on, there is no other outcome. -/
theorem align_least {σ : Type} (terminals : Nat → Terminal σ) {wait : Nat} {r r' : Receiver} {s s' : σ}
    {k : Option Condition} {frames : Nat → List Bytes} (hne : r.channels ≠ [])
    (hdata : ∀ i < r.channels.length, ∀ f ∈ frames i, (DataPacket.ofFrame? r.format f).isSome)
    (hrise : ∀ i < r.channels.length, Rising (r.upcoming frames i))
    (htaken : ∀ i < r.channels.length, r.alignTaken terminals wait s i <+: frames i)
    (h : r.align terminals wait s = (k, r', s')) :
    let left i := (frames i).drop (r.alignTaken terminals wait s i).length
    let shared := Shared r.channels.length (r.upcoming frames)
    r'.channels.length = r.channels.length ∧
    (k = none → ∃ tick, IsLeast {tick | shared tick} tick ∧
      (∀ c ∈ r'.channels, c.held.bind Held.tick? = some tick) ∧
      ∀ i < r.channels.length, r'.upcoming left i = (r.upcoming frames i).filter (tick ≤ ·.tick)) ∧
    (k.map Condition.code = some .timeout →
      ∀ i < r.channels.length, ∀ x ∈ r.upcoming frames i, shared x.tick → x ∈ r'.upcoming left i) ∧
    (k.map Condition.code = some .alignment →
      ∃ cs s₁, BehindRounds terminals r.format wait (4 * r.channels.length) r.channels s cs s₁ ∧
        RxChannel.dropWhere terminals (fun _ => true) 0 cs s₁ = (r'.channels, s')) ∧
    ((∀ i c, r.channels[i]? = some c → GoesOn c.expected (packetsIn r.format (frames i))) →
      k = none ∨ k.map Condition.code = some .timeout ∨ k.map Condition.code = some .alignment) := by
  intro left shared
  obtain ⟨ts, hp, hcs, hformat, htk, hal⟩ := align_path hne h
  have hlen : ts.length = r.channels.length := by rw [hp.length, List.length_map]
  have hget : ∀ i < r.channels.length, ∃ t, ts[i]? = some t := by
    intro i hi
    exact ⟨_, List.getElem?_eq_getElem (by rwa [hlen])⟩
  have htaken' : ∀ i t, ts[i]? = some t → r.alignTaken terminals wait s i = t.taken := by
    intro i t ht
    rw [htk, ht]
    rfl
  have hfed : Fed frames ts := by
    intro i t ht
    rw [← htaken' i t ht]
    exact htaken i (by rw [← hlen]; exact (List.getElem?_eq_some_iff.1 ht).1)
  -- what a track has to come is what the receiver has
  have hleft : ∀ i t, ts[i]? = some t → r'.upcoming left i = t.upcoming r.format (frames i) := by
    intro i t ht
    have hc : r'.channels[i]? = some t.channel := by rw [hcs, List.getElem?_map, ht]; rfl
    rw [Receiver.upcoming_eq hc, hformat, Track.upcoming, ← htaken' i t ht]
  have htrim : k ≠ some .misaligned → Trimmed r.format frames (r.upcoming frames) ts := by
    intro hk
    exact hp.trimmed (by simpa using hk) hfed (by simpa using hrise) (trimmed_start frames)
  have htold := hp.told hfed (by simpa using hdata)
  refine ⟨by rw [hcs, List.length_map, hlen], ?_, ?_, ?_, ?_⟩
  · rintro rfl
    obtain ⟨tick, hleast, hall, hfilter⟩ := (htrim (by simp)).meet (by rwa [hlen])
      (hp.ne_nil (by simpa using hne)) (hal rfl)
    rw [hlen] at hleast
    refine ⟨tick, hleast, fun c hc => ?_, fun i hi => ?_⟩
    · rw [hcs] at hc
      obtain ⟨t, ht, rfl⟩ := List.mem_map.1 hc
      exact hall t ht
    · obtain ⟨t, ht⟩ := hget i hi
      rw [hleft i t ht]
      exact hfilter i t ht
  · intro hk i hi x hx hs
    have hne' : k ≠ some .misaligned := by
      rintro rfl
      cases hk
    obtain ⟨t, ht⟩ := hget i hi
    rw [hleft i t ht]
    exact (htrim hne').mem_of_shared ht hx (by rwa [hlen])
  · intro hk
    obtain ⟨c, rfl, hc⟩ := Option.map_eq_some_iff.1 hk
    rcases htold c (by simp) with rfl | rfl | rfl
    · cases hc
    · cases hc
    · exact align_misaligned h
  · intro hnumbers
    have hgap := align_not_gap hp hfed hnumbers
    cases k with
    | none => exact .inl rfl
    | some c =>
      rcases htold c (by simp) with rfl | rfl | rfl
      · exact .inr (.inl rfl)
      · exact absurd rfl hgap
      · exact .inr (.inr rfl)

/-- One channel has handed out half of its packet, and another begins later: they meet at the
packet after the next. -/
theorem align_least_behind :
    let packet (sequence : UInt16) (tick : UInt64) : Bytes :=
      DataPacket.bytes .sc16 { hasTime := true, sequence, timestamp := tick } [⟨1, 0⟩, ⟨2, 0⟩]
    let held : Held :=
      { frame := ⟨0, packet 0 0, 24⟩, header := { hasTime := true, payloadLength := 8 }, samples := 2, offset := 1 }
    let r : Receiver := { channels := [⟨some held, some 1⟩, {}], format := .sc16, rate := 1, packetSamples := 8 }
    let links := [[packet 1 2, packet 2 4, packet 3 6], [packet 7 4]]
    let frames i := links[i]?.getD []
    let left i := (frames i).drop (r.alignTaken Terminal.scripted 0 links i).length
    let r' := (r.align Terminal.scripted 0 links).2.1
    (r.align Terminal.scripted 0 links).1 = none ∧ ((r.upcoming frames 0).map (·.tick) = [1, 2, 4, 6]) ∧
      (∃ tick, IsLeast {tick | Shared 2 (r.upcoming frames) tick} tick ∧
        (∀ c ∈ r'.channels, c.held.bind Held.tick? = some tick) ∧
        ∀ i < 2, r'.upcoming left i = (r.upcoming frames i).filter (tick ≤ ·.tick)) ∧
      (r'.upcoming left 0).map (·.tick) = [4, 6] := by
  intro packet held r links frames left r'
  have hk : (r.align Terminal.scripted 0 links).1 = none := by decide +kernel
  have hr : r.align Terminal.scripted 0 links = (none, r', _) := Prod.ext hk rfl
  obtain ⟨-, hok, -⟩ := align_least Terminal.scripted (List.cons_ne_nil _ _)
    (show ∀ i < r.channels.length, ∀ f ∈ frames i, (DataPacket.ofFrame? r.format f).isSome by decide +kernel)
    (by decide +kernel) (by decide +kernel) hr
  exact ⟨hk, by decide +kernel, hok rfl, by decide +kernel⟩

end RadioStream
