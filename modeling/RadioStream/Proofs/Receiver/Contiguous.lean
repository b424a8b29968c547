import Mathlib.Data.List.Forall2
import RadioStream.Proofs.Receiver.Lossless
/-!
# The ticks of a call

The samples of one call come from packets that follow each other, but alignment may
let packets go between two portions. `Stamped` says which ticks the samples given
so far have: the same on every channel, going up, and without a gap as long as no
channel lacks the next tick.
-/

namespace RadioStream

namespace Track

variable {format : WireFormat} {t t' : Track}

/-- The tick that a channel has come to: that of the next sample held, or the one
after the last packet. -/
def position? (format : WireFormat) (t : Track) : Option Nat :=
  match t.channel.held with
  | some h => h.tick?
  | none => (packetsIn format t.taken).getLast?.map DataPacket.stop

theorem position_of_held (h : t.channel.held.isSome) : t.position? format = t.tick? := by
  obtain ⟨g, hg⟩ := Option.isSome_iff_exists.1 h
  rw [position?, tick?, hg]
  rfl

theorem exists_packet (hs : t.Sound format) (hb : Bursts (packetsIn format t.taken)) {h : Held}
    (hh : t.channel.held = some h) :
    ∃ ps p, packetsIn format t.taken = ps ++ [p] ∧ h.Of format p ∧ t.unread format = p.samples.drop h.offset ∧
      t.tick? = some (p.start + h.offset) := by
  obtain ⟨p, hp, ho, hu⟩ := hs.unread_eq hh
  obtain ⟨ps, hps⟩ := List.getLast?_eq_some_iff.1 hp
  have ht : p.header.hasTime = true := hb.timed p (by rw [hps]; simp)
  exact ⟨ps, p, hps, ho, hu, by rw [tick?, hh, Option.bind_some, ho.tick ht]⟩

theorem tick_isSome (hs : t.Sound format) (hb : Bursts (packetsIn format t.taken)) (hh : t.channel.held.isSome) :
    t.tick?.isSome := by
  obtain ⟨h, hh⟩ := Option.isSome_iff_exists.1 hh
  obtain ⟨ps, p, -, -, -, ht⟩ := exists_packet hs hb hh
  rw [ht]
  rfl

theorem position_advance (hs : t.Sound format) (hb : Bursts (packetsIn format t.taken)) {h : Held}
    (hh : t.channel.held = some h) {n x : Nat} (hn : n ≤ h.remaining) (ht : t.tick? = some x) :
    (t.advance format n).position? format = some (x + n) := by
  obtain ⟨ps, p, hps, ho, -, hx⟩ := exists_packet hs hb hh
  rw [ht] at hx
  cases hx
  have htime : p.header.hasTime = true := hb.timed p (by rw [hps]; simp)
  have ho' := ho.advance hn
  rw [position?, taken_advance, hps]
  unfold Track.advance
  rw [hh]
  dsimp only
  by_cases hz : ({ h with offset := h.offset + n } : Held).remaining = 0
  · -- the packet is used up, so it stops here
    rw [if_pos hz, List.getLast?_concat, Option.map_some, DataPacket.stop]
    have h₁ := ho'.offset
    have h₂ := ho'.samples
    rw [Held.remaining] at hz
    dsimp only at h₁ h₂ hz ⊢
    congr 1
    omega
  · rw [if_neg hz]
    dsimp only
    rw [ho'.tick htime, Nat.add_assoc]

/-- Samples with their ticks. -/
def Stamps (ps : List DataPacket) : List Nat → List (Iq Int16) → Prop :=
  List.Forall₂ fun tick v => sampleAt ps tick = some v

theorem Stamps.mono {ps qs : List DataPacket} (h : ps <+: qs) {ticks : List Nat} {xs : List (Iq Int16)}
    (hs : Stamps ps ticks xs) : Stamps qs ticks xs :=
  List.Forall₂.imp (fun _ _ hv => sampleAt_mono h hv) hs

/-- The samples handed out have the ticks that follow. -/
theorem stamps_take (hs : t.Sound format) (hb : Bursts (packetsIn format t.taken)) {h : Held}
    (hh : t.channel.held = some h) {n x : Nat} (hn : n ≤ h.remaining) (ht : t.tick? = some x) :
    Stamps (packetsIn format t.taken) (List.range' x n) ((t.unread format).take n) := by
  obtain ⟨ps, p, hps, ho, hu, hx⟩ := exists_packet hs hb hh
  rw [ht] at hx
  cases hx
  have hl := hs.length_unread hh
  rw [hps] at hb ⊢
  rw [hu] at hl ⊢
  refine List.forall₂_iff_get.2 ⟨?_, fun i h₁ h₂ => ?_⟩
  · rw [List.length_range', List.length_take, hl, Nat.min_eq_left hn]
  · have hi : i < n := by rwa [List.length_range'] at h₁
    rw [List.length_drop] at hl
    simp only [List.get_eq_getElem, List.getElem_range', Nat.one_mul, List.getElem_take, List.getElem_drop]
    rw [Nat.add_assoc, hb.sampleAt_last (by omega), List.getElem?_eq_getElem]

/-- Letting go of a packet only moves ahead. -/
theorem position_drop (hs : t.Sound format) (hb : Bursts (packetsIn format t.taken)) (test : Held → Bool) {x : Nat}
    (hx : t.position? format = some x) : ∃ y, (t.drop test).position? format = some y ∧ x ≤ y := by
  unfold drop
  split
  · next ht =>
    obtain ⟨h, hh⟩ := Option.isSome_iff_exists.1 (Option.isSome_of_any ht)
    obtain ⟨ps, p, hps, ho, -, hp⟩ := exists_packet hs hb hh
    rw [position_of_held (by rw [hh]; rfl), hp] at hx
    cases hx
    refine ⟨p.stop, by rw [position?]; dsimp only; rw [hps, List.getLast?_concat, Option.map_some], ?_⟩
    have := ho.offset
    rw [ho.samples] at this
    rw [DataPacket.stop]
    omega
  · exact ⟨x, hx, le_rfl⟩

end Track

/-- Bringing in a packet moves ahead only where no packet has the tick come to. -/
theorem Fetched.position {format : WireFormat} {t t' : Track} {k : Option Condition} (hf : Fetched format t k t')
    (hb : Bursts (packetsIn format t'.taken)) {x : Nat} (hx : t.position? format = some x) :
    ∃ y, t'.position? format = some y ∧ x ≤ y ∧
      (y = x ∨ ∃ ps p q, packetsIn format t'.taken = ps ++ [p, q] ∧ p.stop = x ∧ q.start = y ∧
        (t'.channel.held.any Held.startsBurst = true ∨ y = x)) := by
  have hpass : ∀ {frame}, t.channel.held = none → DataPacket.ofFrame? format frame = none →
      (t.pass frame).position? format = some x := by
    intro frame hn hp
    rw [← hx, Track.position?, Track.position?]
    simp [Track.pass, hn, packetsIn, hp]
  cases hf with
  | kept | silence => exact ⟨x, hx, le_rfl, .inl rfl⟩
  | malformed hn _ hi =>
    exact ⟨x, hpass hn (DataPacket.ofFrame?_eq_none (by simp [hi])), le_rfl, .inl rfl⟩
  | status hn _ hi =>
    exact ⟨x, hpass hn (DataPacket.ofFrame?_eq_none (by simp [hi])), le_rfl, .inl rfl⟩
  | @data f g n hn _ hi =>
    obtain ⟨q, hq, rfl, ho⟩ := Held.exists_of hi
    rw [Track.position?, hn, Option.map_eq_some_iff] at hx
    obtain ⟨p, hp, rfl⟩ := hx
    obtain ⟨ps, hps⟩ := List.getLast?_eq_some_iff.1 hp
    have e : packetsIn format (t.hold f q.header n).taken = ps ++ [p, q] := by
      rw [Track.packetsIn_hold hq, hps, List.append_assoc]
      rfl
    rw [e] at hb
    have htime : q.header.hasTime = true := hb.timed q (by simp)
    have hy : (t.hold f q.header n).position? format = some q.start := ho.tick htime
    -- the packet comes after the one before, and right after it unless it starts a burst
    have hle : p.stop ≤ q.start := by
      have := (List.pairwise_append.1 hb.ordered).2.1
      exact (List.pairwise_cons.1 this).1 q List.mem_cons_self
    have hjoin : q.header.startOfBurst = false → q.start = p.stop :=
      List.isChain_pair.1 hb.joined.right_of_append
    refine ⟨q.start, hy, hle, .inr ⟨ps, p, q, e, rfl, rfl, ?_⟩⟩
    cases hs : q.header.startOfBurst with
    | false => exact .inr (hjoin hs)
    | true =>
      have : (t.hold f q.header n).channel.held.any Held.startsBurst = q.header.startOfBurst := Bool.and_true _
      exact .inl (this.trans hs)

/-- A channel comes to the tick after its last packet, or to a packet that starts a
burst. -/
theorem Fetched.joined {format : WireFormat} {t t' : Track} {k : Option Condition} (hf : Fetched format t k t')
    (hb : Bursts (packetsIn format t'.taken)) {x : Nat} (hx : t.position? format = some x) :
    t'.position? format = some x ∨ t'.channel.held.any Held.startsBurst = true := by
  rcases hf.position hb hx with ⟨y, hy, -, rfl | ⟨-, -, -, -, -, -, hs | rfl⟩⟩
  · exact .inl hy
  · exact .inr hs
  · exact .inl hy

theorem Fetched.of_held {format : WireFormat} {t t' : Track} {k : Option Condition} (hf : Fetched format t k t')
    (hh : t.channel.held.isSome) : t' = t := by
  cases hf with
  | kept | silence => rfl
  | malformed hn | status hn | data hn => simp [hn] at hh

/-! ## The ticks of the samples given -/

section Ticks

variable {format : WireFormat} {n : Nat} {logs : Nat → List Bytes} {first : Nat}

/-- Some channel has no sample with the tick. -/
def Lacking (format : WireFormat) (n : Nat) (logs : Nat → List Bytes) (tick : Nat) : Prop :=
  ∃ i < n, sampleAt (packetsIn format (logs i)) tick = none

/-- The samples given in a call have ticks from the first one on that go up, and no
channel has fallen behind. -/
structure Stamped (format : WireFormat) (first : Nat) (ticks : List Nat) (next : Nat) (ts : List Track) : Prop where
  nonempty : ts ≠ []
  sound : ∀ t ∈ ts, t.Sound format
  stamps : ∀ t ∈ ts, Track.Stamps (packetsIn format t.taken) ticks t.given
  ahead : ∀ t ∈ ts, ∃ x, t.position? format = some x ∧ next ≤ x
  sorted : ticks.Pairwise (· < ·)
  within : ∀ tick ∈ ticks, first ≤ tick ∧ tick < next
  first_le : first ≤ next

/-- No tick is left out before one that some channel lacks. -/
def Unbroken (format : WireFormat) (n : Nat) (logs : Nat → List Bytes) (first : Nat) (ticks : List Nat) (next : Nat)
    (ts : List Track) : Prop :=
  (ticks = List.range' first ticks.length ∧
    ((next = first + ticks.length ∧ ∀ t ∈ ts, t.position? format = some next) ∨
      Lacking format n logs (first + ticks.length))) ∨
  ∃ m < ticks.length, Lacking format n logs (first + m)

/-- The tracks of a call that began at a tick. -/
def InBlock (format : WireFormat) (n : Nat) (logs : Nat → List Bytes) (first : Nat) (ts : List Track) : Prop :=
  ∃ ticks next, Stamped format first ticks next ts ∧ Unbroken format n logs first ticks next ts

theorem Begins.bursts (hlogs : ∀ i < n, Bursts (packetsIn format (logs i))) {fs : List Bytes}
    (h : Begins n logs fs) : Bursts (packetsIn format fs) := by
  obtain ⟨i, hi, hp⟩ := h
  exact (hlogs i hi).mono (packetsIn_mono format hp)

/-- A channel that moves ahead lacks the tick it had come to. -/
theorem Fetched.lacking (hlogs : ∀ i < n, Bursts (packetsIn format (logs i))) {t t' : Track} {k : Option Condition}
    (hf : Fetched format t k t') (hb : Begins n logs t'.taken) {x : Nat} (hx : t.position? format = some x) :
    ∃ y, t'.position? format = some y ∧ x ≤ y ∧ (y = x ∨ Lacking format n logs x) := by
  rcases hf.position (hb.bursts hlogs) hx with ⟨y, hy, hle, rfl | ⟨ps, p, q, e, hp, hq, -⟩⟩
  · exact ⟨y, hy, hle, .inl rfl⟩
  · rcases Nat.eq_or_lt_of_le hle with rfl | hlt
    · exact ⟨x, hy, le_rfl, .inl rfl⟩
    · -- in the log of the channel, the two packets lie on both sides of the tick
      obtain ⟨i, hi, hpre⟩ := hb
      obtain ⟨qs, hqs⟩ := packetsIn_mono format hpre
      have hburst := hlogs i hi
      rw [e, List.append_assoc] at hqs
      rw [← hqs] at hburst
      refine ⟨y, hy, hle, .inr ⟨i, hi, ?_⟩⟩
      rw [← hqs]
      exact hburst.sampleAt_gap (le_of_eq hp) (by omega)

theorem Stamped.step (hlogs : ∀ i < n, Bursts (packetsIn format (logs i))) {ts ts' : List Track}
    {k : Option Condition} (hs : Step format ts k ts') (hb : ∀ t ∈ ts', Begins n logs t.taken) {ticks : List Nat}
    {next : Nat} (h : Stamped format first ticks next ts) : Stamped format first ticks next ts' where
  nonempty := hs.ne_nil h.nonempty
  sound := hs.sound h.sound
  stamps := by
    intro t' ht'
    cases hs with
    | fetch hf =>
      rcases hf.exists_mem ht' with ⟨t, ht, rfl | ⟨k, hk⟩⟩
      · exact h.stamps t' ht
      · rw [hk.given]
        exact (h.stamps t ht).mono (packetsIn_mono format hk.grows)
    | drop | giveUp =>
      obtain ⟨t, ht, rfl⟩ := List.mem_map.1 ht'
      rw [Track.taken_drop, Track.given_drop]
      exact h.stamps t ht
  ahead := by
    intro t' ht'
    cases hs with
    | fetch hf =>
      rcases hf.exists_mem ht' with ⟨t, ht, rfl | ⟨k, hk⟩⟩
      · exact h.ahead t' ht
      · obtain ⟨x, hx, hle⟩ := h.ahead t ht
        obtain ⟨y, hy, hxy, -⟩ := hk.lacking hlogs (hb t' ht') hx
        exact ⟨y, hy, hle.trans hxy⟩
    | drop | giveUp =>
      obtain ⟨t, ht, rfl⟩ := List.mem_map.1 ht'
      obtain ⟨x, hx, hle⟩ := h.ahead t ht
      have hbt := (hb _ ht').bursts hlogs
      rw [Track.taken_drop] at hbt
      obtain ⟨y, hy, hxy⟩ := Track.position_drop (h.sound t ht) hbt _ hx
      exact ⟨y, hy, hle.trans hxy⟩
  sorted := h.sorted
  within := h.within
  first_le := h.first_le

theorem Unbroken.step (hlogs : ∀ i < n, Bursts (packetsIn format (logs i))) {ts ts' : List Track}
    {k : Option Condition} (hs : Step format ts k ts') (hb : ∀ t ∈ ts', Begins n logs t.taken) {ticks : List Nat}
    {next : Nat} (h : Unbroken format n logs first ticks next ts) : Unbroken format n logs first ticks next ts' := by
  rcases h with ⟨hr, ⟨hn, hp⟩ | hl⟩ | hl
  · -- channels at one tick are let go of by none, and move ahead only if they lack it
    have hf := hs.fetched_of_even fun hh =>
      ⟨some next, fun t ht => by rw [← Track.position_of_held (hh t ht), hp t ht]⟩
    by_cases hl : Lacking format n logs (first + ticks.length)
    · exact .inl ⟨hr, .inr hl⟩
    · refine .inl ⟨hr, .inl ⟨hn, fun t' ht' => ?_⟩⟩
      rcases hf.exists_mem ht' with ⟨t, ht, rfl | ⟨k, hk⟩⟩
      · exact hp t' ht
      · rcases hk.lacking hlogs (hb t' ht') (hp t ht) with ⟨y, hy, -, rfl | hlack⟩
        · exact hy
        · exact absurd (hn ▸ hlack) hl
  · exact .inl ⟨hr, .inr hl⟩
  · exact .inr hl

theorem Stamped.advance (hlogs : ∀ i < n, Bursts (packetsIn format (logs i))) {ts : List Track} {m x : Nat}
    (ha : Aligned ts) (hroom : Room m ts) (hb : ∀ t ∈ ts, Begins n logs t.taken) (hx : ∀ t ∈ ts, t.tick? = some x)
    {ticks : List Nat} {next : Nat} (h : Stamped format first ticks next ts) (hle : next ≤ x) :
    Stamped format first (ticks ++ List.range' x m) (x + m) (ts.map (Track.advance format m)) where
  nonempty := by simpa using h.nonempty
  sound := by
    intro t' ht'
    obtain ⟨t, ht, rfl⟩ := List.mem_map.1 ht'
    exact (h.sound t ht).advance (hroom t ht)
  stamps := by
    intro t' ht'
    obtain ⟨t, ht, rfl⟩ := List.mem_map.1 ht'
    obtain ⟨g, hg⟩ := Option.isSome_iff_exists.1 (ha.held t ht)
    rw [Track.taken_advance, Track.given_advance]
    exact List.rel_append (h.stamps t ht)
      (Track.stamps_take (h.sound t ht) ((hb t ht).bursts hlogs) hg (hroom t ht g hg) (hx t ht))
  ahead := by
    intro t' ht'
    obtain ⟨t, ht, rfl⟩ := List.mem_map.1 ht'
    obtain ⟨g, hg⟩ := Option.isSome_iff_exists.1 (ha.held t ht)
    exact ⟨x + m, Track.position_advance (h.sound t ht) ((hb t ht).bursts hlogs) hg (hroom t ht g hg) (hx t ht), le_rfl⟩
  sorted := by
    refine List.pairwise_append.2 ⟨h.sorted, List.pairwise_lt_range', fun a ha b hb => ?_⟩
    have h₁ := (h.within a ha).2
    have h₂ := (List.mem_range'_1.1 hb).1
    omega
  within := by
    intro tick ht
    have hf := h.first_le
    rcases List.mem_append.1 ht with ht | ht
    · have := h.within tick ht
      omega
    · have := List.mem_range'_1.1 ht
      omega
  first_le := by
    have := h.first_le
    omega

theorem Unbroken.advance (hlogs : ∀ i < n, Bursts (packetsIn format (logs i))) {ts : List Track} {m x : Nat}
    (ha : Aligned ts) (hroom : Room m ts) (hb : ∀ t ∈ ts, Begins n logs t.taken) (hx : ∀ t ∈ ts, t.tick? = some x)
    {ticks : List Nat} {next : Nat} (hs : Stamped format first ticks next ts)
    (h : Unbroken format n logs first ticks next ts) :
    Unbroken format n logs first (ticks ++ List.range' x m) (x + m) (ts.map (Track.advance format m)) := by
  have hlen : (ticks ++ List.range' x m).length = ticks.length + m := by
    rw [List.length_append, List.length_range']
  rw [Unbroken, hlen]
  rcases h with ⟨hr, ⟨hn, hp⟩ | hl⟩ | ⟨j, hj, hl⟩
  · left
    obtain ⟨t, ht⟩ := List.exists_mem_of_ne_nil ts hs.nonempty
    -- the channels are at the next tick, so the portion begins there
    obtain rfl : next = x := by
      have := hp t ht
      rw [Track.position_of_held (ha.held t ht), hx t ht] at this
      exact (Option.some.inj this).symm
    refine ⟨?_, .inl ⟨by omega, fun t' ht' => ?_⟩⟩
    · rw [hr, List.length_range', hn, List.range'_append_1]
    · obtain ⟨t, ht, rfl⟩ := List.mem_map.1 ht'
      obtain ⟨g, hg⟩ := Option.isSome_iff_exists.1 (ha.held t ht)
      exact Track.position_advance (hs.sound t ht) ((hb t ht).bursts hlogs) hg (hroom t ht g hg) (hx t ht)
  · -- nothing more can be given without leaving out the tick that is lacking
    rcases Nat.eq_zero_or_pos m with rfl | hm
    · exact .inl ⟨by simpa using hr, .inr (by simpa using hl)⟩
    · exact .inr ⟨ticks.length, by omega, hl⟩
  · exact .inr ⟨j, by omega, hl⟩

theorem inBlock_invariant (hlogs : ∀ i < n, Bursts (packetsIn format (logs i))) :
    Invariant format (Begins n logs) (InBlock format n logs first) (fun _ => True) where
  closed := Begins.of_grown
  step := by
    rintro ts k ts' hs hb ⟨ticks, next, hst, hu⟩
    exact ⟨⟨ticks, next, hst.step hlogs hs hb, hu.step hlogs hs hb⟩, fun _ _ => trivial⟩
  advance := by
    rintro ts m ha hroom hb ⟨ticks, next, hst, hu⟩
    obtain ⟨x, hx⟩ := ha.tick fun t ht =>
      Track.tick_isSome (hst.sound t ht) ((hb t ht).bursts hlogs) (ha.held t ht)
    have hle : next ≤ x := by
      obtain ⟨t, ht⟩ := List.exists_mem_of_ne_nil ts hst.nonempty
      obtain ⟨y, hy, hle⟩ := hst.ahead t ht
      rw [Track.position_of_held (ha.held t ht), hx t ht] at hy
      cases hy
      exact hle
    exact ⟨_, _, hst.advance hlogs ha hroom hb hx hle, hu.advance hlogs ha hroom hb hx hst⟩

/-! ## A single channel -/

/-- A single channel whose samples follow each other, and that has come to the next
one or to the begin of a burst. -/
def Joined (format : WireFormat) (first : Nat) (ts : List Track) : Prop :=
  ∃ t, ts = [t] ∧ ∃ k, Stamped format first (List.range' first k) (first + k) [t] ∧
    (t.position? format = some (first + k) ∨ t.channel.held.any Held.startsBurst = true)

theorem joined_invariant (hlogs : ∀ i < n, Bursts (packetsIn format (logs i))) :
    StepInvariant format (Begins n logs) (Joined format first) (fun _ => True) where
  closed := Begins.of_grown
  step := by
    rintro ts c ts' hs hb ⟨t, rfl, k, hst, hj⟩
    have hst' := hst.step hlogs hs hb
    refine ⟨?_, fun _ _ => trivial⟩
    obtain ⟨c, t', rfl, hf⟩ := hs.single
    refine ⟨t', rfl, k, hst', ?_⟩
    rcases hj with hj | hj
    · exact (hf.joined ((hb t' (by simp)).bursts hlogs) hj)
    · -- the packet that starts the burst is still held
      rw [hf.of_held (Option.isSome_of_any hj)]
      exact .inr hj

theorem Joined.advance (hlogs : ∀ i < n, Bursts (packetsIn format (logs i))) {ts : List Track} {m : Nat}
    (ha : Aligned ts) (hburst : (leading ts).any Held.startsBurst = false) (hroom : Room m ts)
    (hb : ∀ t ∈ ts, Begins n logs t.taken) (h : Joined format first ts) :
    Joined format first (ts.map (Track.advance format m)) := by
  rcases h with ⟨t, rfl, k, hst, hp | hs⟩
  · obtain ⟨g, hg⟩ := Option.isSome_iff_exists.1 (ha.held t (by simp))
    have hx : t.tick? = some (first + k) := by rw [← Track.position_of_held (ha.held t (by simp)), hp]
    have hadv := hst.advance hlogs ha hroom hb (by simpa using hx) le_rfl
    have hpos := Track.position_advance (hst.sound t (by simp)) ((hb t (by simp)).bursts hlogs) hg
      (hroom t (by simp) g hg) hx
    rw [List.range'_append_1, Nat.add_assoc] at hadv
    exact ⟨_, rfl, k + m, hadv, .inl (by rw [hpos, Nat.add_assoc])⟩
  · rw [show leading [t] = t.channel.held from rfl, hs] at hburst
    cases hburst

/-! ## Blocks -/

/-- A block begins at a tick of the device. -/
structure RxMetadata.OpensAt (rate : Float) (first : Nat) (md : RxMetadata) : Prop where
  hasTime : md.hasTime = true
  time : first < 2 ^ 63 → md.time = Instant.ofTicks first rate

theorem Portion.Of.opensAt {ts : List Track} {p : Portion} {most : Nat} (ho : p.Of format most ts)
    (hs : ∀ t ∈ ts, t.Sound format) (hb : ∀ t ∈ ts, Bursts (packetsIn format t.taken)) {x : Nat}
    (hx : ∀ t ∈ ts, t.tick? = some x) (rate : Float) (md : RxMetadata) : (p.opening rate md).OpensAt rate x := by
  obtain ⟨h, hl, hheader, hoffset⟩ := ho.lead
  obtain ⟨t, ht, hh⟩ := exists_leading hl
  obtain ⟨ps, q, hq, hof, -, htick⟩ := Track.exists_packet (hs t ht) (hb t ht) hh
  have htime : q.header.hasTime = true := (hb t ht).timed q (by rw [hq]; simp)
  obtain rfl : q.start + h.offset = x := by
    rw [hx t ht] at htick
    exact (Option.some.inj htick).symm
  obtain ⟨e, he⟩ := noteVector_eq p p.count
    { md.reset with
      hasTime := p.header.hasTime
      time := Held.timeAt p.header p.offset rate
      startOfBurst := p.header.startOfBurst && p.offset == 0
      fragmentOffset := p.offset }
  rw [Portion.opening, he]
  refine ⟨?_, fun _ => ?_⟩
  · show p.header.hasTime = true
    rw [hheader, hof.header, htime]
  · show Held.timeAt p.header p.offset rate = _
    rw [hheader, hof.header, hoffset]
    exact Held.timeAt_eq _ _ rate

/-- The channels before a block are at its first tick. -/
theorem Stamped.start {ts : List Track} (ha : Aligned ts) (hne : ts ≠ []) (hs : ∀ t ∈ ts, t.Sound format)
    (hg : ∀ t ∈ ts, t.given = []) (hx : ∀ t ∈ ts, t.tick? = some first) : Stamped format first [] first ts where
  nonempty := hne
  sound := hs
  stamps t ht := by rw [hg t ht]; exact .nil
  ahead t ht := ⟨first, by rw [Track.position_of_held (ha.held t ht), hx t ht], le_rfl⟩
  sorted := .nil
  within := by simp
  first_le := le_rfl

/-- A call for samples that returns some gives a block. -/
theorem Call.block (hlogs : ∀ i < n, Bursts (packetsIn format (logs i))) {rate : Float} {count : Nat}
    {onePacket : Bool} {md : RxMetadata} {kept : Option Condition} {ts ts' : List Track} {rep : RxReport}
    (hC : Call format rate count onePacket md kept ts rep ts') (hr : Ready format 0 ts)
    (hb : ∀ t ∈ ts', Begins n logs t.taken) (hk : 0 < rep.count) :
    ∃ first, rep.metadata.OpensAt rate first ∧ InBlock format n logs first ts' ∧
      (ts.length = 1 → Joined format first ts') := by
  cases hC with
  | told | polled | refused => exact absurd hk (Nat.lt_irrefl 0)
  | @delivered _ ts₁ p fuel k g hcount hp ha ho _ hG =>
    have hb₁ : ∀ t ∈ ts₁, Begins n logs t.taken :=
      ((advance_grows _ _).trans hG.grows).back Begins.of_grown hb
    have hbursts : ∀ t ∈ ts₁, Bursts (packetsIn format t.taken) := fun t ht => (hb₁ t ht).bursts hlogs
    have hr₁ := hr.path hp
    obtain ⟨first, hx⟩ := ha.tick fun t ht => Track.tick_isSome (hr₁.sound t ht) (hbursts t ht) (ha.held t ht)
    have hst : Stamped format first [] first ts₁ :=
      .start ha hr₁.nonempty hr₁.sound (fun t ht => List.length_eq_zero_iff.1 (hr₁.given t ht)) hx
    have hpos : ∀ t ∈ ts₁, t.position? format = some first := fun t ht => by
      rw [Track.position_of_held (ha.held t ht), hx t ht]
    have hop := ho.opensAt hr₁.sound hbursts hx rate md
    refine ⟨first, ?_, ?_, fun hone => ?_⟩
    · obtain ⟨e, he⟩ := hG.metadata
      dsimp only at he ⊢
      rw [he]
      exact ⟨hop.hasTime, hop.time⟩
    · have hB : InBlock format n logs first ts₁ := ⟨[], first, hst, .inl ⟨rfl, .inl ⟨rfl, hpos⟩⟩⟩
      exact ((inBlock_invariant hlogs).gathered hG hb ((inBlock_invariant hlogs).advance ha ho.room hb₁ hB)).1
    · obtain ⟨t, rfl⟩ : ∃ t, ts₁ = [t] := List.length_eq_one_iff.1 (hp.length.trans hone)
      obtain ⟨h, hh⟩ := Option.isSome_iff_exists.1 (ha.held t (by simp))
      have hadv := hst.advance hlogs ha ho.room hb₁ hx le_rfl
      have hnext := Track.position_advance (hr₁.sound t (by simp)) (hbursts t (by simp)) hh
        (ho.room t (by simp) h hh) (hx t (by simp))
      have hJ : Joined format first ([t].map (Track.advance format p.count)) :=
        ⟨_, rfl, p.count, hadv, .inl hnext⟩
      exact ((joined_invariant hlogs).gathered (Joined.advance hlogs) hG hb hJ).1

/-! ## Sessions of blocks -/

/-- The samples that a call returns on each of `n` channels are those of some
ticks. -/
def RxReturn.Stamped {S : Type} [HostSample S] (format : WireFormat) (n : Nat) (logs : Nat → List Bytes)
    (ticks : List Nat) (y : RxReturn S) : Prop :=
  ∀ i < n, List.Forall₂ (fun tick v => (sampleAt (packetsIn format (logs i)) tick).map HostSample.ofRaw = some v)
    ticks (y.samples i)

/-- What the metadata of a block and the packets of the links tell of its samples. -/
def RxReturn.Dated {S : Type} [HostSample S] (format : WireFormat) (rate : Float) (n : Nat) (logs : Nat → List Bytes)
    (y : RxReturn S) : Prop :=
  ∀ k, y.outcome = .ok k → 0 < k → ∃ first, y.metadata.OpensAt rate first ∧
    (∃ ticks : List Nat, ticks.Pairwise (· < ·) ∧ (∀ tick ∈ ticks, first ≤ tick) ∧
      y.Stamped format n logs ticks) ∧
    (y.Stamped format n logs (List.range' first k) ↔
      ∀ i < n, ∀ j < k, (sampleAt (packetsIn format (logs i)) (first + j)).isSome) ∧
    (n = 1 → y.Stamped format n logs (List.range' first k))

section Sessions

variable {S : Type} [HostSample S] {rate : Float}

/-- What is returned has the ticks of what is given. -/
theorem Stamped.returned {ticks : List Nat} {next : Nat} {ts : List Track} {rep : RxReport} {y : RxReturn S}
    (h : Stamped format first ticks next ts) (hn : ts.length = n)
    (hlogs : ∀ i t, ts[i]? = some t → t.taken <+: logs i) (hy : y.Tells rep ts) :
    y.Stamped format n logs ticks := by
  intro i hi
  have ht := List.getElem?_eq_getElem (hn.symm ▸ hi : i < ts.length)
  rw [hy.samples i _ ht, List.forall₂_map_right_iff]
  have hs := (h.stamps _ (List.mem_of_getElem? ht)).mono (packetsIn_mono format (hlogs i _ ht))
  exact List.Forall₂.imp (fun _ _ hv => by rw [hv, Option.map_some]) hs

/-- Samples with ticks that no channel lacks follow each other. -/
theorem Unbroken.eq_range {ticks : List Nat} {next : Nat} {ts : List Track}
    (h : Unbroken format n logs first ticks next ts)
    (hfull : ∀ i < n, ∀ j < ticks.length, (sampleAt (packetsIn format (logs i)) (first + j)).isSome) :
    ticks = List.range' first ticks.length := by
  rcases h with ⟨hr, -⟩ | ⟨j, hj, i, hi, hl⟩
  · exact hr
  · have := hfull i hi j hj
    rw [hl] at this
    cases this

theorem Call.dated (hlogs : ∀ i < n, Bursts (packetsIn format (logs i))) {count : Nat} {onePacket : Bool}
    {md : RxMetadata} {kept : Option Condition} {ts ts' : List Track} {rep : RxReport} {y : RxReturn S}
    (hC : Call format rate count onePacket md kept ts rep ts') (hr : Ready format 0 ts) (hn : ts.length = n)
    (hb : ∀ i t, ts'[i]? = some t → t.taken <+: logs i) (hy : y.Tells rep ts') : y.Dated format rate n logs := by
  intro k hk hpos
  have hlen : ts'.length = n := hC.length.trans hn
  have hbegins : ∀ t ∈ ts', Begins n logs t.taken := by
    intro t ht
    obtain ⟨i, hi⟩ := List.mem_iff_getElem?.1 ht
    exact ⟨i, hlen ▸ (List.getElem?_eq_some_iff.1 hi).1, hb i t hi⟩
  obtain rfl : rep.count = k := by
    rw [hy.outcome] at hk
    exact Except.ok.inj hk
  obtain ⟨first, hop, ⟨ticks, next, hst, hu⟩, hone⟩ := hC.block hlogs hr hbegins hpos
  have hticks : ticks.length = rep.count := by
    obtain ⟨t, ht⟩ := List.exists_mem_of_ne_nil ts' hst.nonempty
    rw [(hst.stamps t ht).length_eq]
    exact (hC.ready hr).given t ht
  have hy' := hst.returned hlen hb hy
  refine ⟨first, hy.metadata ▸ hop, ⟨ticks, hst.sorted, fun tick ht => (hst.within tick ht).1, hy'⟩,
    ⟨fun h i hi j hj => ?_, fun h => ?_⟩, fun h => ?_⟩
  · obtain ⟨hl, hget⟩ := List.forall₂_iff_get.1 (h i hi)
    rw [List.length_range'] at hl
    have hv := hget j (by rwa [List.length_range']) (hl ▸ hj)
    rw [List.get_eq_getElem, List.getElem_range', Nat.one_mul, Option.map_eq_some_iff] at hv
    obtain ⟨v, hv, -⟩ := hv
    rw [hv]
    rfl
  · rw [← hticks] at h ⊢
    rw [← hu.eq_range h]
    exact hy'
  · obtain ⟨t, rfl, m, hst', -⟩ := hone (hn.trans h)
    have hm : m = rep.count := by
      have := (hst'.stamps t (by simp)).length_eq
      rw [List.length_range'] at this
      exact this.trans ((hC.ready hr).given t (by simp))
    rw [← hm]
    exact hst'.returned hlen hb hy

/-- The tracks of a session are those of some links, and its blocks are dated. -/
def AllDated (format : WireFormat) (rate : Float) (n : Nat) (logs : Nat → List Bytes) (rs : List (RxReturn S))
    (_ : Option Condition) (ts : List Track) : Prop :=
  ts.length = n ∧ ((∀ i t, ts[i]? = some t → t.taken <+: logs i) → ∀ y ∈ rs, y.Dated format rate n logs)

theorem allDated_calls {σ : Type} (hlogs : ∀ i < n, Bursts (packetsIn format (logs i))) :
    CallInvariant (S := S) (σ := σ) (fun _ => True) format rate (AllDated format rate n logs) where
  misuse := by
    rintro rs kept ts e buffers md ⟨hlen, hi⟩
    refine ⟨hlen, fun hb z hz => ?_⟩
    rcases List.mem_append.1 hz with hz | hz
    · exact hi hb z hz
    · obtain rfl := List.mem_singleton.1 hz
      intro k hk
      cases hk
  call := by
    rintro rs kept ts buffers count wait onePacket md rep ts' y - hC hr hy ⟨hlen, hi⟩
    refine ⟨by rw [List.length_map, hC.length, hlen], fun hb z hz => ?_⟩
    have hb' : ∀ i t, ts'[i]? = some t → t.taken <+: logs i := fun i t ht =>
      hb i t.turn (by rw [List.getElem?_map, ht]; rfl)
    rcases List.mem_append.1 hz with hz | hz
    · refine hi (fun i t ht => ?_) z hz
      obtain ⟨t', ht', hp⟩ := hC.grows.at_index ht
      exact hp.trans (hb' i t' ht')
    · obtain rfl := List.mem_singleton.1 hz
      exact hC.dated hlogs hr hlen hb' hy

end Sessions

end Ticks

/-- Over links that carry bursts of packets, the samples that a call returns have
ticks that go up from the time in its metadata, the same on every channel. They
follow each other without a gap exactly if no channel lacks one of these ticks. With
one channel they always do, because a call stops where a burst starts. -/
theorem block_contiguous_iff {S σ : Type} [HostSample S] (terminals : Nat → Terminal σ) {sizes : List Nat}
    {format : WireFormat} {rate : Float} {packetSamples : Nat} {r : Receiver}
    (hr : Receiver.new sizes format rate packetSamples = .ok r) (s : σ) (as : List (RxAction S σ))
    (hlogs : ∀ i < sizes.length, Bursts (packetsIn format (RxSession.framesTaken terminals ⟨r, s, []⟩ as i))) :
    let x : RxSession S σ := ⟨r, s, []⟩
    let logs := x.framesTaken terminals as
    ∀ y ∈ (x.run terminals as).returns, ∀ k, y.outcome = .ok k → 0 < k → ∃ first, y.metadata.OpensAt rate first ∧
      (∃ ticks : List Nat, ticks.Pairwise (· < ·) ∧ (∀ tick ∈ ticks, first ≤ tick) ∧
        y.Stamped format sizes.length logs ticks) ∧
      (y.Stamped format sizes.length logs (List.range' first k) ↔
        ∀ i < sizes.length, ∀ j < k, (sampleAt (packetsIn format (logs i)) (first + j)).isSome) ∧
      (sizes.length = 1 → y.Stamped format sizes.length logs (List.range' first k)) := by
  intro x logs y hy
  have hstart : Reaches terminals format rate (AllDated format rate sizes.length logs) x.record :=
    reaches_new hr s ⟨List.length_map _, by simp⟩
  obtain ⟨-, -, ts, hd, -, hi⟩ := hstart.run (allDated_calls hlogs) as fun _ _ => trivial
  rw [← RxSession.erase_runRecorded] at hy
  exact hi (fun i t ht => (hd.plain ht).2.1 ▸ List.prefix_refl _) y hy

/-- The second channel lacks two ticks and starts a burst after them, which a call
does not see: it returns samples from before the gap and from behind it. -/
theorem block_contiguous_iff_hidden_gap :
    let packet (startOfBurst : Bool) (sequence : UInt16) (tick : UInt64) (xs : List (Iq Int16)) : Bytes :=
      DataPacket.bytes .sc16 { hasTime := true, startOfBurst, sequence, timestamp := tick } xs
    let links := [
      [packet true 0 0 [⟨0, 0⟩, ⟨1, 0⟩], packet false 1 2 [⟨2, 0⟩, ⟨3, 0⟩], packet false 2 4 [⟨4, 0⟩, ⟨5, 0⟩]],
      [packet true 0 0 [⟨0, 1⟩, ⟨1, 1⟩], packet true 1 4 [⟨4, 1⟩, ⟨5, 1⟩]]]
    let r : Receiver := { channels := [{}, {}], format := .sc16, rate := 1, packetSamples := 8 }
    let x : RxSession (Iq Int16) (List (List Bytes)) := ⟨r, links, []⟩
    let as := [RxAction.recv [List.replicate 6 ⟨0, 0⟩, List.replicate 6 ⟨0, 0⟩] 6 0 false {}]
    let logs := x.framesTaken Terminal.scripted as
    let y := x.run Terminal.scripted as
    Receiver.new [64, 64] .sc16 1 8 = .ok r ∧ (∀ i < 2, Bursts (packetsIn .sc16 (logs i))) ∧
      (∀ z ∈ y.returns, ∀ k, z.outcome = .ok k → 0 < k → ∃ first, z.metadata.OpensAt 1 first ∧
        (z.Stamped .sc16 2 logs (List.range' first k) ↔
          ∀ i < 2, ∀ j < k, (sampleAt (packetsIn .sc16 (logs i)) (first + j)).isSome)) ∧
      sampleAt (packetsIn .sc16 (logs 1)) 2 = none ∧
      y.returns.map (·.samples 1) = [[⟨0, 1⟩, ⟨1, 1⟩, ⟨4, 1⟩, ⟨5, 1⟩]] := by
  intro packet links r x as logs y
  have hr : Receiver.new [64, 64] .sc16 1 8 = .ok r := rfl
  have hlogs : ∀ i < 2, Bursts (packetsIn .sc16 (logs i)) := by decide +kernel
  refine ⟨hr, hlogs, fun z hz k hk hpos => ?_, by decide +kernel, by decide +kernel⟩
  obtain ⟨first, hop, -, hiff, -⟩ := block_contiguous_iff Terminal.scripted hr links as hlogs z hz k hk hpos
  exact ⟨first, hop, hiff⟩

end RadioStream
