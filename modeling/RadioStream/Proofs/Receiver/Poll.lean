import RadioStream.Proofs.Receiver.Lossless
/-!
# Looking without taking

A call for no samples tells what comes next. It lets go of a packet without samples,
since no later call could hand any out, and it tells by the packet of the first channel
alone whether to do so, for all channels.

`poll_keeps_unread` is about channels whose packets are at one tick once they are there.
The poll then leaves what is unread as it is, unless the packet of the first channel is
used up and that of another channel is not.
-/

namespace RadioStream

/-! ## What comes in is unread -/

/-- The track later on, with the samples of what has come in behind those that it had. -/
def Track.Gains (format : WireFormat) (t t' : Track) : Prop :=
  ∃ news, t'.taken = t.taken ++ news ∧ t'.unread format = t.unread format ++ samplesOf (packetsIn format news)

theorem Track.Gains.refl (format : WireFormat) (t : Track) : t.Gains format t :=
  ⟨[], (List.append_nil _).symm, (List.append_nil _).symm⟩

theorem Fetched.gains {format : WireFormat} {t t' : Track} {k : Option Condition} (hf : Fetched format t k t') :
    t.Gains format t' := by
  -- a frame without a data packet brings no samples
  have hpass : ∀ {frame}, DataPacket.ofFrame? format frame = none → t.Gains format (t.pass frame) := by
    intro frame hp
    refine ⟨[frame], rfl, ?_⟩
    rw [packetsIn, List.filterMap_cons_none hp]
    exact (List.append_nil _).symm
  cases hf with
  | kept | silence => exact .refl format _
  | malformed _ _ hi => exact hpass (DataPacket.ofFrame?_eq_none (by simp [hi]))
  | status _ _ hi => exact hpass (DataPacket.ofFrame?_eq_none (by simp [hi]))
  | @data f h n hn _ hi =>
    obtain ⟨p, hp, rfl, ho⟩ := Held.exists_of hi
    have hu : (t.hold f p.header n).unread format = p.samples := ho.unread
    refine ⟨[f.payload], rfl, ?_⟩
    rw [hu, Track.unread_of_not_held hn, packetsIn, List.filterMap_cons_some hp]
    exact (samplesOf_singleton p).symm

theorem FetchedAll.gains {format : WireFormat} {ts ts' : List Track} {k : Option Condition}
    (hf : FetchedAll format ts k ts') : List.Forall₂ (Track.Gains format) ts ts' := by
  induction hf with
  | nil => exact .nil
  | stop h => exact .cons h.gains (List.forall₂_same.2 fun t _ => .refl format t)
  | next h _ ih => exact .cons h.gains ih

theorem Track.unread_drop_all (format : WireFormat) (t : Track) : (t.drop fun _ => true).unread format = [] := by
  unfold Track.drop Track.unread
  cases hh : t.channel.held <;> simp [hh]

/-- Letting go of all packets does no harm just where nothing is unread. -/
theorem forall₂_gains_drop_iff {format : WireFormat} {ts ts' : List Track}
    (h : List.Forall₂ (Track.Gains format) ts ts') :
    List.Forall₂ (Track.Gains format) ts (ts'.map (Track.drop fun _ => true)) ↔ ∀ t ∈ ts', t.unread format = [] := by
  induction h with
  | nil => simp
  | @cons t t' ts ts' hg _ ih =>
    obtain ⟨news, ht, hu⟩ := hg
    have hhead : t.Gains format (t'.drop fun _ => true) ↔ t'.unread format = [] := by
      rw [Track.Gains, Track.unread_drop_all, Track.taken_drop, ht, hu]
      constructor
      · -- the same frames are told of before and after
        rintro ⟨news', ht', hu'⟩
        rw [List.append_cancel_left ht', ← hu']
      · intro hnil
        exact ⟨news, rfl, hnil.symm⟩
    rw [List.map_cons, List.forall₂_cons, hhead, ih, List.forall_mem_cons]

theorem Receiver.unread_eq {r : Receiver} {ts : List Track} (hr : r.channels = ts.map (·.channel)) {i : Nat} {t : Track}
    (ht : ts[i]? = some t) : r.unread i = t.unread r.format := by
  rw [Receiver.unread, hr, List.getElem?_map, ht]
  rfl

/-! ## The step -/

/-- All packets held are at one tick, or none has a time. -/
def SharesTick (cs : List RxChannel) : Prop := ∃ tick, ∀ c ∈ cs, c.held.bind Held.tick? = tick

/-- The packet of the first channel is used up. -/
def LeadEmpty (cs : List RxChannel) : Prop := ∃ lead, cs.head?.bind (·.held) = some lead ∧ lead.remaining = 0

section Steps

variable {σ : Type} {terminals : Nat → Terminal σ} {wait : Nat} {r : Receiver} {s s' : σ} {k : Option Condition}
  {cs : List RxChannel}

/-- No packet is behind the tick that all share. -/
theorem SharesTick.any_behind (h : SharesTick cs) {newest : Nat} (hn : Receiver.newestTick cs = some newest) :
    (cs.any fun c => c.held.any (Held.behind newest)) = false := by
  obtain ⟨tick, ht⟩ := h
  cases cs with
  | nil => rfl
  | cons c cs =>
    cases tick with
    | none => simp [Receiver.newestTick, ht c List.mem_cons_self] at hn
    | some x =>
      rw [newestTick_eq_some (by simp) ht] at hn
      cases hn
      rw [List.any_eq_false]
      intro d hd
      have hx := ht d hd
      cases hh : d.held with
      | none => simp
      | some h =>
        rw [hh, Option.bind_some] at hx
        simp [Held.behind, hx]

/-- A poll brings in packets, and then lets go of all or of none. -/
theorem poll_of_shared (hf : RxChannel.fetchAll terminals r.format wait 0 r.channels s = (k, cs, s'))
    (hne : r.channels ≠ []) (hk : k = none → SharesTick cs) (md : RxMetadata) :
    (¬(k = none ∧ LeadEmpty cs) ∧ ∃ md' st, r.poll terminals wait md s =
      (md', { r with channels := cs, state := st }, s')) ∨
    (k = none ∧ LeadEmpty cs ∧ ∃ md' st, r.poll terminals wait md s =
      (md', { r with channels := (RxChannel.dropWhere terminals (fun _ => true) 0 cs s').1, state := st },
        (RxChannel.dropWhere terminals (fun _ => true) 0 cs s').2)) := by
  unfold Receiver.poll
  -- packets at one tick are aligned as they come
  rw [Receiver.align_of_fetchAll hne hf fun h _ => (hk h).any_behind]
  cases k with
  | some c => exact .inl ⟨by simp, _, _, rfl⟩
  | none =>
    dsimp only [Receiver.leading?]
    cases hlead : cs.head?.bind (·.held) with
    | none => exact .inl ⟨by simp [LeadEmpty, hlead], _, _, rfl⟩
    | some lead =>
      dsimp only
      by_cases hz : lead.remaining = 0
      · rw [if_pos hz]
        exact .inr ⟨rfl, ⟨lead, hlead, hz⟩, _, _, rfl⟩
      · rw [if_neg hz]
        exact .inl ⟨by simp [LeadEmpty, hlead, hz], _, _, rfl⟩

end Steps

/-! ## Polls of a session -/

/-- A call for no samples tells of a condition that was kept, or polls. -/
theorem Receiver.recv_zero {S σ : Type} [HostSample S] (terminals : Nat → Terminal σ) {r : Receiver}
    {buffers : List (List S)} (hl : buffers.length = r.channels.length) (wait : Nat) (onePacket : Bool)
    (md : RxMetadata) (s : σ) :
    r.recv terminals buffers 0 wait onePacket md s = match r.deferred with
      | some c => ⟨.ok 0, buffers, c.report r.rate md.reset, { r with deferred := none }, s⟩
      | none => ⟨.ok 0, buffers, (r.poll terminals wait md.reset s).1, (r.poll terminals wait md.reset s).2.1,
          (r.poll terminals wait md.reset s).2.2⟩ := by
  have hshort : buffers.find? (·.length < 0) = none := by simp
  unfold Receiver.recv
  rw [if_neg (by simp [hl]), hshort]
  dsimp only
  cases r.deferred <;> rfl

namespace RxSession

variable {S σ : Type} (terminals : Nat → Terminal σ)

/-- The packets that a poll brings in, where it brings in one for each channel, are at
one tick. -/
def Even (wait : Nat) (y : RxSession S σ) : Prop :=
  ∀ cs s', RxChannel.fetchAll terminals y.receiver.format wait 0 y.receiver.channels y.surroundings = (none, cs, s') →
    SharesTick cs

/-- A poll comes to look at the packets, and finds that of the first channel used up and
that of another channel not. -/
def Lopsided (buffers : List (List S)) (wait : Nat) (y : RxSession S σ) : Prop :=
  buffers.length = y.receiver.channels.length ∧ y.receiver.deferred = none ∧ ∃ cs s',
    RxChannel.fetchAll terminals y.receiver.format wait 0 y.receiver.channels y.surroundings = (none, cs, s') ∧
      LeadEmpty cs ∧ ∃ c ∈ cs, ∃ h ∈ c.held, h.remaining ≠ 0

variable {terminals}

theorem Even.of_all {wait : Nat} {y : RxSession S σ} (tick : Option Nat)
    (h : ((RxChannel.fetchAll terminals y.receiver.format wait 0 y.receiver.channels y.surroundings).2.1.all
      fun c => c.held.bind Held.tick? == tick) = true) : y.Even terminals wait := by
  intro cs s' hf
  rw [hf, List.all_eq_true] at h
  exact ⟨tick, fun c hc => by simpa using h c hc⟩

/-- What a session remembers beside does not matter for what a poll finds. -/
theorem fetchAll_erase (X : RxSession S (Recorded σ)) (wait : Nat) :
    RxChannel.fetchAll terminals X.erase.receiver.format wait 0 X.erase.receiver.channels X.erase.surroundings =
      Prod.map id (Prod.map id Recorded.inner)
        (RxChannel.fetchAll (recording terminals) X.receiver.format wait 0 X.receiver.channels X.surroundings) :=
  fetchAll_shown (recording_shows terminals) X.receiver.format wait 0 X.receiver.channels X.surroundings

theorem Even.of_erase {X : RxSession S (Recorded σ)} {wait : Nat} (h : X.erase.Even terminals wait) :
    X.Even (recording terminals) wait := by
  intro cs s' hf
  refine h cs s'.inner ?_
  rw [fetchAll_erase, hf]
  rfl

theorem lopsided_erase {X : RxSession S (Recorded σ)} {buffers : List (List S)} {wait : Nat} :
    X.erase.Lopsided terminals buffers wait ↔ X.Lopsided (recording terminals) buffers wait := by
  unfold Lopsided
  rw [fetchAll_erase]
  refine and_congr_right fun _ => and_congr_right fun _ => exists_congr fun cs => ?_
  constructor
  · rintro ⟨s', hf, hc⟩
    rcases he : RxChannel.fetchAll (recording terminals) X.receiver.format wait 0 X.receiver.channels X.surroundings
      with ⟨k, cs', S'⟩
    rw [he] at hf
    cases hf
    exact ⟨S', rfl, hc⟩
  · rintro ⟨s', hf, hc⟩
    exact ⟨s'.inner, by rw [hf]; rfl, hc⟩

end RxSession

/-- What is unread are the samples that the packets held have still to hand out. -/
theorem forall_unread_iff {format : WireFormat} {ts : List Track} (hs : ∀ t ∈ ts, t.Sound format) :
    (∀ t ∈ ts, t.unread format = []) ↔ ¬∃ c ∈ ts.map (·.channel), ∃ h ∈ c.held, h.remaining ≠ 0 := by
  have hone : ∀ t ∈ ts, t.unread format = [] ↔ ∀ h ∈ t.channel.held, h.remaining = 0 := by
    intro t ht
    cases hh : t.channel.held with
    | none => simp [Track.unread_of_not_held hh]
    | some g => simp [← (hs t ht).length_unread hh]
  simp only [List.mem_map, exists_exists_and_eq_and, not_exists, not_and, not_not]
  exact forall₂_congr fun t ht => hone t ht

section Sessions

variable {S σ : Type} [HostSample S] {terminals : Nat → Terminal σ} {L : Ledger terminals} {y : RxSession S σ}
  {ts : List Track}

/-- A poll keeps what is unread, unless it finds the packets lopsided. -/
theorem Described.poll (h : Described L y ts) {wait : Nat} (heven : y.Even terminals wait) (buffers : List (List S))
    (onePacket : Bool) (md : RxMetadata) :
    ∃ ts' st d s' z, y.step terminals (.recv buffers 0 wait onePacket md) =
        ⟨{ y.receiver with channels := ts'.map (·.channel), state := st, deferred := d }, s', y.returns ++ [z]⟩ ∧
      L.Tells (ts'.map (·.account)) s' ∧ ts'.length = ts.length ∧
      (List.Forall₂ (Track.Gains y.receiver.format) ts ts' ↔ ¬y.Lopsided terminals buffers wait) := by
  have hrefl : List.Forall₂ (Track.Gains y.receiver.format) ts ts := List.forall₂_same.2 fun t _ => .refl _ t
  by_cases hl : buffers.length = y.receiver.channels.length
  · rw [RxSession.step, Receiver.recv_zero terminals hl]
    cases hd : y.receiver.deferred with
    | some c =>
      exact ⟨ts, _, _, _, _, by rw [← h.channels], h.tells, rfl, iff_of_true hrefl (by simp [RxSession.Lopsided, hd])⟩
    | none =>
      have hne : y.receiver.channels ≠ [] := by simpa [h.channels] using h.nonempty
      rcases hf : RxChannel.fetchAll terminals y.receiver.format wait 0 y.receiver.channels y.surroundings
        with ⟨k, cs, s₁⟩
      have hf' := hf
      rw [h.channels] at hf'
      obtain ⟨ts₁, hfetched, rfl, hT₁⟩ := fetchAll_first L h.tells hf'
      have hk : k = none → SharesTick (ts₁.map (·.channel)) := by
        rintro rfl
        exact heven _ _ hf
      have hlop : y.Lopsided terminals buffers wait ↔ k = none ∧ LeadEmpty (ts₁.map (·.channel)) ∧
          ∃ c ∈ ts₁.map (·.channel), ∃ h ∈ c.held, h.remaining ≠ 0 := by
        simp only [RxSession.Lopsided, hl, hd, hf, Prod.mk.injEq, true_and]
        constructor
        · rintro ⟨_, _, ⟨rfl, rfl, rfl⟩, hc⟩
          exact ⟨rfl, hc⟩
        · rintro ⟨rfl, hc⟩
          exact ⟨_, _, ⟨rfl, rfl, rfl⟩, hc⟩
      rcases poll_of_shared hf hne hk md.reset with ⟨hlead, md', st, hp⟩ | ⟨rfl, hlead, md', st, hp⟩
      · dsimp only
        rw [hp]
        refine ⟨ts₁, st, none, s₁, _, by rw [← hd], hT₁, hfetched.length, iff_of_true hfetched.gains ?_⟩
        rw [hlop]
        rintro ⟨hk, hc, -⟩
        exact hlead ⟨hk, hc⟩
      · -- all packets go, those with unread samples too
        obtain ⟨s₂, hdrop, hT₂⟩ := drop_first L (fun _ => true) hT₁
        dsimp only
        rw [hp, hdrop]
        refine ⟨_, st, none, s₂, _, by rw [← hd], hT₂, by rw [List.length_map, hfetched.length], ?_⟩
        rw [hlop, forall₂_gains_drop_iff hfetched.gains, forall_unread_iff ((Step.fetch hfetched).sound h.sound)]
        simp only [hlead, true_and]
  · have hbad : ¬(buffers.length = y.receiver.channels.length ∧ ∀ b ∈ buffers, 0 ≤ b.length) := fun h => hl h.1
    obtain ⟨e, he⟩ := recv_misuse terminals 0 wait onePacket md y.surroundings hbad
    rw [RxSession.step, he]
    exact ⟨ts, _, _, _, _, by rw [← h.channels], h.tells, rfl, iff_of_true hrefl fun hlop => hl hlop.1⟩

end Sessions

/-- Where the packets of all channels are at one tick, once each channel has one, a call
for no samples leaves the unread samples of every channel as they are, but for those that
come in: unless the packet of the first channel is used up and that of another is not. -/
theorem poll_keeps_unread {S σ : Type} [HostSample S] (terminals : Nat → Terminal σ) {sizes : List Nat}
    {format : WireFormat} {rate : Float} {packetSamples : Nat} {r : Receiver}
    (hr : Receiver.new sizes format rate packetSamples = .ok r) (s : σ) (as : List (RxAction S σ))
    (buffers : List (List S)) (wait : Nat) (onePacket : Bool) (md : RxMetadata) :
    let x : RxSession S σ := ⟨r, s, []⟩
    let poll : RxAction S σ := .recv buffers 0 wait onePacket md
    let y := x.run terminals as
    let z := x.run terminals (as ++ [poll])
    y.Even terminals wait →
      ((∀ i < sizes.length, ∃ news, x.framesTaken terminals (as ++ [poll]) i = x.framesTaken terminals as i ++ news ∧
          z.receiver.unread i = y.receiver.unread i ++ samplesOf (packetsIn format news)) ↔
        ¬y.Lopsided terminals buffers wait) := by
  intro x poll y z heven
  have hkeep : CallInvariant (S := S) (σ := σ) (fun _ => True) format rate fun _ _ ts => ts.length = sizes.length :=
    { misuse := fun _ _ _ hi => hi
      call := fun _ hC _ _ hi => by rw [List.length_map, hC.length, hi] }
  have hstart : Reaches terminals format rate (fun _ _ ts => ts.length = sizes.length) x.record :=
    reaches_new hr s (List.length_map _)
  obtain ⟨hfmt, -, ts, hd, hlen⟩ := hstart.run hkeep as fun _ _ => trivial
  rw [← RxSession.runRecorded] at hfmt hd
  have hy : (x.runRecorded terminals as).erase = y := RxSession.erase_runRecorded terminals x as
  rw [← hy] at heven ⊢
  obtain ⟨ts', st, d, s', w, he, hT, hlen', hiff⟩ := hd.poll heven.of_erase buffers onePacket md
  replace he := (RxSession.runRecorded_concat terminals x as poll).trans he
  have hz : (x.runRecorded terminals (as ++ [poll])).erase = z := RxSession.erase_runRecorded terminals x (as ++ [poll])
  -- what the session shows of a channel is what its tracks say
  have hview : ∀ i, (hi : i < ts.length) → (hi' : i < ts'.length) → ((∃ news,
        x.framesTaken terminals (as ++ [poll]) i = x.framesTaken terminals as i ++ news ∧
          z.receiver.unread i =
            (x.runRecorded terminals as).erase.receiver.unread i ++ samplesOf (packetsIn format news)) ↔
      ts[i].Gains format ts'[i]) := by
    intro i hi hi'
    have ht := List.getElem?_eq_getElem hi
    have ht' := List.getElem?_eq_getElem hi'
    have htaken' : x.framesTaken terminals (as ++ [poll]) i = ts'[i].taken := by
      rw [RxSession.framesTaken, he, hT.1, List.getElem?_map, List.getElem?_map, ht']
      rfl
    have hu : (x.runRecorded terminals as).erase.receiver.unread i = ts[i].unread format := by
      rw [← hfmt]
      exact Receiver.unread_eq hd.channels ht
    have hu' : z.receiver.unread i = ts'[i].unread format := by
      rw [← hz, he, ← hfmt]
      exact Receiver.unread_eq rfl ht'
    rw [(hd.plain ht).2.1, htaken', hu, hu']
    rfl
  rw [RxSession.lopsided_erase, ← hiff, hfmt, List.forall₂_iff_get, ← hlen]
  constructor
  · intro h
    exact ⟨hlen'.symm, fun i hi hi' => (hview i hi hi').1 (h i hi)⟩
  · intro h i hi
    have hi' : i < ts'.length := hlen'.symm ▸ hi
    exact (hview i hi hi').2 (h.2 i hi hi')

/-- After a call for one sample, the packet of the first channel has one left and the second
channel takes a packet without any. The poll keeps the sample. -/
theorem poll_keeps_unread_second_empty :
    let packet (sequence : UInt16) (tick : UInt64) (xs : List (Iq Int16)) : Bytes :=
      DataPacket.bytes .sc16 { hasTime := true, sequence, timestamp := tick } xs
    let links := [[packet 0 100 [⟨1, 0⟩, ⟨2, 0⟩]], [packet 7 100 [⟨1, 1⟩], packet 8 101 []]]
    let r : Receiver := { channels := [{}, {}], format := .sc16, rate := 1, packetSamples := 8 }
    let x : RxSession (Iq Int16) (List (List Bytes)) := ⟨r, links, []⟩
    let as := [RxAction.recv [[⟨0, 0⟩], [⟨0, 0⟩]] 1 0 false {}]
    let poll := RxAction.recv [[], []] 0 0 false {}
    let y := x.run Terminal.scripted as
    let z := x.run Terminal.scripted (as ++ [poll])
    Receiver.new [64, 64] .sc16 1 8 = .ok r ∧ y.Even Terminal.scripted 0 ∧ ¬y.Lopsided Terminal.scripted [[], []] 0 ∧
      (∀ i < 2, ∃ news,
        x.framesTaken Terminal.scripted (as ++ [poll]) i = x.framesTaken Terminal.scripted as i ++ news ∧
        z.receiver.unread i = y.receiver.unread i ++ samplesOf (packetsIn .sc16 news)) ∧
      z.receiver.unread 0 = [⟨2, 0⟩] ∧ z.receiver.unread 1 = [] := by
  intro packet links r x as poll y z
  have hr : Receiver.new [64, 64] .sc16 1 8 = .ok r := rfl
  have heven : y.Even Terminal.scripted 0 := .of_all (some 101) (by decide +kernel)
  have hlop : ¬y.Lopsided Terminal.scripted [[], []] 0 := by
    rintro ⟨-, -, cs, s', hf, ⟨lead, hlead, hz⟩, -⟩
    have hone : ((RxChannel.fetchAll Terminal.scripted y.receiver.format 0 0 y.receiver.channels
        y.surroundings).2.1.head?.bind (·.held)).map Held.remaining = some 1 := by decide +kernel
    rw [hf, hlead, Option.map_some, hz] at hone
    cases hone
  exact ⟨hr, heven, hlop, (poll_keeps_unread Terminal.scripted hr links as [[], []] 0 false {} heven).2 hlop,
    by decide +kernel, by decide +kernel⟩

end RadioStream
