import RadioStream.Proofs.Receiver.Session
import RadioStream.Proofs.Stream
/-!
# Nothing is lost

A track is lossless if what it has handed out, followed by what it still holds, is
what came in. Bringing in a packet and handing out samples keep that
(`Fetched.lossless`, `Track.Lossless.advance`); only letting go of a packet with
unread samples does not. So a receiver loses nothing as long as it has no reason to
let packets go, and a receiver with a single channel never has one.
-/

namespace RadioStream

/-- The samples of the packet that a channel holds which are still to be handed
out. -/
def Receiver.unread (r : Receiver) (i : Nat) : List (Iq Int16) :=
  match (r.channels[i]?).bind (·.held) with
  | some h => h.unread r.format
  | none => []

namespace Track

variable {format : WireFormat} {t t' : Track}

/-- What came in has been handed out or is still to be. -/
def Lossless (format : WireFormat) (t : Track) : Prop :=
  t.total ++ t.unread format = samplesOf (packetsIn format t.taken)

theorem lossless_blank : ({} : Track).Lossless format := rfl

theorem unread_of_not_held (h : t.channel.held = none) : t.unread format = [] := by
  rw [unread, h]

theorem unread_advance (hs : t.Sound format) {n : Nat} (hn : ∀ h ∈ t.channel.held, n ≤ h.remaining) :
    (t.advance format n).unread format = (t.unread format).drop n := by
  cases hh : t.channel.held with
  | none =>
    have ha : t.advance format n = t := by rw [advance, hh]
    rw [ha, unread_of_not_held hh, List.drop_nil]
  | some h =>
    obtain ⟨p, -, ho⟩ := hs.held h hh
    have hl := hn h hh
    have ho' := ho.advance hl
    have hu : t.unread format = p.samples.drop h.offset := by rw [unread, hh]; exact ho.unread
    rw [hu, List.drop_drop]
    unfold advance unread
    rw [hh]
    dsimp only
    by_cases hz : ({ h with offset := h.offset + n } : Held).remaining = 0
    · -- the packet is used up, so nothing lies past the offset
      have hd := ho'.length_unread
      rw [hz, ho'.unread] at hd
      rw [if_pos hz]
      exact (List.length_eq_zero_iff.1 hd).symm
    · rw [if_neg hz]
      exact ho'.unread

theorem Lossless.advance (h : t.Lossless format) (hs : t.Sound format) {n : Nat}
    (hn : ∀ h ∈ t.channel.held, n ≤ h.remaining) : (t.advance format n).Lossless format := by
  rw [Lossless, total_advance, unread_advance hs hn, taken_advance, ← h, List.append_assoc, List.take_append_drop]

theorem Lossless.turn (h : t.Lossless format) : t.turn.Lossless format := by
  rw [Lossless, show t.turn.total = t.total from List.append_nil _]
  exact h

/-- Without unread samples, there are none after letting go either. -/
theorem unread_drop {test : Held → Bool} (hu : t.unread format = []) : (t.drop test).unread format = [] := by
  unfold Track.drop
  split
  · rfl
  · exact hu

/-- A packet without unread samples can be let go. -/
theorem Lossless.drop (h : t.Lossless format) {test : Held → Bool} (hu : t.unread format = []) :
    (t.drop test).Lossless format := by
  have he : (t.drop test).unread format = [] := unread_drop hu
  have ht : (t.drop test).total = t.total := by rw [total, total, earlier_drop, given_drop]
  rw [Lossless, he, ht, taken_drop, ← h, hu]

end Track

theorem Fetched.lossless {format : WireFormat} {t t' : Track} {k : Option Condition} (hf : Fetched format t k t')
    (h : t.Lossless format) : t'.Lossless format := by
  -- a frame without a data packet changes neither side
  have hpass : ∀ {frame}, t.channel.held = none → DataPacket.ofFrame? format frame = none →
      (t.pass frame).Lossless format := by
    intro frame hn hp
    rw [Track.Lossless, Track.packetsIn_pass hp]
    exact h
  cases hf with
  | kept | silence => exact h
  | malformed hn _ hi => exact hpass hn (DataPacket.ofFrame?_eq_none (by simp [hi]))
  | status hn _ hi => exact hpass hn (DataPacket.ofFrame?_eq_none (by simp [hi]))
  | @data f g n hn _ hi =>
    obtain ⟨p, hp, rfl, ho⟩ := Held.exists_of hi
    have hu : (t.hold f p.header n).unread format = p.samples := ho.unread
    have ht : t.total = samplesOf (packetsIn format t.taken) := by
      rw [← h, Track.unread_of_not_held hn, List.append_nil]
    rw [Track.Lossless, Track.packetsIn_hold hp, hu, samplesOf_append, samplesOf_singleton, ← ht]
    rfl

/-! ## One channel -/

section Single

variable {format : WireFormat}

/-- A single track that is sound and lossless. -/
def LosslessSingle (format : WireFormat) (ts : List Track) : Prop :=
  ∃ t, ts = [t] ∧ t.Sound format ∧ t.Lossless format

theorem losslessSingle_invariant : Invariant format (fun _ => True) (LosslessSingle format) (fun _ => True) where
  closed _ _ := trivial
  step := by
    rintro ts k ts' hs - ⟨t, rfl, hsound, hl⟩
    obtain ⟨c, t', rfl, hf⟩ := hs.single
    exact ⟨⟨t', rfl, hf.sound hsound, hf.lossless hl⟩, fun _ _ => trivial⟩
  advance := by
    rintro ts n - hr - ⟨t, rfl, hs, hl⟩
    have hn : ∀ h ∈ t.channel.held, n ≤ h.remaining := hr t List.mem_cons_self
    exact ⟨_, rfl, hs.advance hn, hl.advance hs hn⟩

theorem LosslessSingle.empty {ts : List Track} {h : Held} (hl : leading ts = some h) (hz : h.remaining = 0)
    (hi : LosslessSingle format ts) : LosslessSingle format (ts.map (Track.drop fun _ => true)) := by
  obtain ⟨t, rfl, hs, ht⟩ := hi
  have hu : t.unread format = [] := by
    rw [← List.length_eq_zero_iff, hs.length_unread hl, hz]
  exact ⟨_, rfl, hs.drop _, ht.drop hu⟩

theorem losslessSingle_calls {S σ : Type} [HostSample S] {rate : Float} :
    CallInvariant (S := S) (σ := σ) (fun _ => True) format rate fun _ _ ts => LosslessSingle format ts where
  misuse _ _ _ hi := hi
  call _ hC _ _ hi := by
    obtain ⟨t, rfl, hs, hl⟩ := losslessSingle_invariant.call (fun _ _ _ => LosslessSingle.empty) hC
      (fun _ _ => trivial) hi
    exact ⟨_, rfl, hs.turn, hl.turn⟩

end Single

/-- Over any link, whatever frames come on it and whatever the calls ask for, the
samples returned by a receiver with one channel, followed by those it still holds,
are the samples of the data packets taken, each once and in order. -/
theorem single_channel_lossless {S σ : Type} [HostSample S] (terminals : Nat → Terminal σ) {frameSize : Nat}
    {format : WireFormat} {rate : Float} {packetSamples : Nat} {r : Receiver}
    (hr : Receiver.new [frameSize] format rate packetSamples = .ok r) (s : σ) (as : List (RxAction S σ)) :
    let x : RxSession S σ := ⟨r, s, []⟩
    (x.run terminals as).returned 0 ++ ((x.run terminals as).receiver.unread 0).map HostSample.ofRaw =
      (samplesOf (packetsIn format (x.framesTaken terminals as 0))).map HostSample.ofRaw := by
  intro x
  have hstart : Reaches terminals format rate (fun _ _ ts => LosslessSingle format ts) x.record :=
    reaches_new hr s ⟨{}, rfl, Track.sound_blank, Track.lossless_blank⟩
  obtain ⟨hfmt, -, ts, hd, t, rfl, -, hl⟩ := hstart.run losslessSingle_calls as fun _ _ => trivial
  obtain ⟨hret, htaken, hheld⟩ := hd.plain (i := 0) rfl
  have hf : (x.run terminals as).receiver.format = format := by
    rw [← RxSession.erase_runRecorded]
    exact hfmt
  have hu : (x.run terminals as).receiver.unread 0 = t.unread format := by
    cases hh : t.channel.held <;> simp [Receiver.unread, Track.unread, hheld, hf, hh]
  rw [hret, hu, htaken, ← List.map_append, hl]

/-- Two packets with a gap between them and a frame that makes no sense, taken by
calls for two samples, for none and for five. -/
theorem single_channel_lossless_gap :
    let frames := [DataPacket.bytes .sc16 { sequence := 7 } [⟨1, 2⟩, ⟨3, 4⟩, ⟨5, 6⟩], [1, 2, 3],
      DataPacket.bytes .sc16 { sequence := 9 } [⟨7, 8⟩]]
    let r : Receiver := { channels := [{}], format := .sc16, rate := 1, packetSamples := 8 }
    let x : RxSession (Iq Int16) (List (List Bytes)) := ⟨r, [frames], []⟩
    let as := [2, 0, 5, 5, 5, 5].map fun n => RxAction.recv [List.replicate 5 ⟨0, 0⟩] n 0 false {}
    let y := x.run Terminal.scripted as
    Receiver.new [64] .sc16 1 8 = .ok r ∧
      y.returned 0 ++ (y.receiver.unread 0).map HostSample.ofRaw =
        (samplesOf (packetsIn .sc16 (x.framesTaken Terminal.scripted as 0))).map HostSample.ofRaw ∧
      y.returned 0 = [⟨1, 2⟩, ⟨3, 4⟩, ⟨5, 6⟩, ⟨7, 8⟩] := by
  intro frames r x as y
  have hr : Receiver.new [64] .sc16 1 8 = .ok r := rfl
  exact ⟨hr, single_channel_lossless Terminal.scripted hr [frames] as, by decide +kernel⟩

/-! ## Several channels -/

section Several

variable {format : WireFormat} {tick : Nat} {logs : Nat → List Bytes} {n : Nat}

/-- Sound and lossless tracks that have handed out the same number of samples. -/
def Abreast (format : WireFormat) (ts : List Track) : Prop :=
  ∃ k, ∀ t ∈ ts, t.Sound format ∧ t.Lossless format ∧ t.total.length = k

/-- The frames are the begin of one of `n` logs. -/
def Begins (n : Nat) (logs : Nat → List Bytes) (fs : List Bytes) : Prop := ∃ i < n, fs <+: logs i

/-- No packet came in time, or the device reports a condition in one of `n` logs. -/
def Reported (format : WireFormat) (n : Nat) (logs : Nat → List Bytes) (c : Condition) : Prop :=
  c = .silence ∨ ∃ code stamp, c = .status code stamp ∧
    ∃ i < n, ∃ f ∈ logs i, Incoming.ofFrame format f = .status code stamp

theorem Begins.steady (hlogs : ∀ i < n, Steady format tick (logs i)) {fs : List Bytes} (h : Begins n logs fs) :
    Steady format tick fs := by
  obtain ⟨i, hi, hp⟩ := h
  exact (hlogs i hi).mono hp

/-- In a stream without gaps, the tick of a track is the number of samples that it
has handed out. -/
theorem Track.tick_of_steady {t : Track} (hs : t.Sound format) (hl : t.Lossless format)
    (hst : Steady format tick t.taken) (hh : t.channel.held.isSome) :
    t.tick? = some (tick + t.total.length) := by
  obtain ⟨h, hh⟩ := Option.isSome_iff_exists.1 hh
  obtain ⟨p, hp, ho, hu⟩ := hs.unread_eq hh
  obtain ⟨ps, hps⟩ := List.getLast?_eq_some_iff.1 hp
  have hg := hst.gapless
  rw [hps] at hg
  obtain ⟨ht, hstart, -⟩ := (gapless_append.1 hg).2
  -- what was handed out are the packets before and the samples before the offset
  have hlen := congrArg List.length hl
  rw [hu, hps, samplesOf_append, samplesOf_singleton, List.length_append, List.length_append, List.length_drop] at hlen
  have hoff := ho.offset
  rw [ho.samples] at hoff
  rw [Track.tick?, hh, Option.bind_some, ho.tick ht, hstart]
  congr 1
  omega

/-- A packet that follows the last one has the sequence number that the channel
expects. -/
theorem Track.Sound.expects {t : Track} (hs : t.Sound format) {f : Frame} {g : Header} {m : Nat}
    (hi : Incoming.ofFrame format f.payload = .data g m) (hc : Consecutive (packetsIn format (t.hold f g m).taken)) :
    t.channel.expected.all (· == g.sequence) = true := by
  obtain ⟨p, hp, rfl, -⟩ := Held.exists_of hi
  rw [packetsIn_hold hp] at hc
  rw [hs.expected]
  cases hlast : (packetsIn format t.taken).getLast? with
  | none => rfl
  | some q => simp [hc.next hlast]

theorem Fetched.reported {t t' : Track} {c : Condition} (hf : Fetched format t (some c) t') (hs : t.Sound format)
    (hst : Steady format tick t'.taken) (hb : Begins n logs t'.taken) : Reported format n logs c := by
  generalize hk : some c = k at hf
  cases hf with
  | kept => cases hk
  | silence => cases hk; exact .inl rfl
  | @malformed frame _ _ hi => exact absurd hi (hst.recognised frame (by simp [Track.pass]))
  | @status frame code stamp _ _ hi =>
    cases hk
    obtain ⟨i, hi', hp⟩ := hb
    exact .inr ⟨code, stamp, rfl, i, hi', frame, hp.subset (by simp [Track.pass]), hi⟩
  | data _ _ hi => rw [if_pos (hs.expects hi hst.consecutive)] at hk; cases hk

theorem Begins.of_grown {fs gs : List Bytes} (hp : fs <+: gs) (h : Begins n logs gs) : Begins n logs fs := by
  obtain ⟨i, hi, h⟩ := h
  exact ⟨i, hi, hp.trans h⟩

theorem abreast_invariant (hlogs : ∀ i < n, Steady format tick (logs i)) :
    Invariant format (Begins n logs) (Abreast format) (Reported format n logs) where
  closed := Begins.of_grown
  step := by
    rintro ts k ts' hs hb ⟨m, hm⟩
    have hb₀ := hs.grows.back Begins.of_grown hb
    -- packets of tracks that are abreast have the same tick
    have hf : FetchedAll format ts k ts' := by
      refine hs.fetched_of_even fun hh => ⟨some (tick + m), fun t ht => ?_⟩
      obtain ⟨hsound, hl, hlen⟩ := hm t ht
      rw [← hlen]
      exact Track.tick_of_steady hsound hl ((hb₀ t ht).steady hlogs) (hh t ht)
    refine ⟨⟨m, fun t' ht' => ?_⟩, fun c hc => ?_⟩
    · rcases hf.exists_mem ht' with ⟨t, ht, rfl | ⟨k, hk⟩⟩
      · exact hm t' ht
      · obtain ⟨hsound, hl, hlen⟩ := hm t ht
        exact ⟨hk.sound hsound, hk.lossless hl, by rw [Track.total, hk.earlier, hk.given]; exact hlen⟩
    · cases hc
      obtain ⟨t, ht, t', ht', h⟩ := hf.condition
      exact h.reported (hm t ht).1 ((hb t' ht').steady hlogs) (hb t' ht')
  advance := by
    rintro ts j ha hr - ⟨m, hm⟩
    refine ⟨m + j, fun t ht => ?_⟩
    obtain ⟨u, hu, rfl⟩ := List.mem_map.1 ht
    obtain ⟨hs, hl, hlen⟩ := hm u hu
    obtain ⟨h, hh⟩ := Option.isSome_iff_exists.1 (ha.held u hu)
    refine ⟨hs.advance (hr u hu), hl.advance hs (hr u hu), ?_⟩
    rw [Track.total_advance, List.length_append, List.length_take, hs.length_unread hh,
      Nat.min_eq_left (hr u hu h hh), hlen]

/-- A call reports no packets out of sequence, and misaligned channels or bad packets
only where the device does. -/
def Faultless (format : WireFormat) (n : Nat) (logs : Nat → List Bytes) (md : RxMetadata) : Prop :=
  md.outOfSequence = false ∧ (md.code = .alignment ∨ md.code = .badPacket →
    ∃ i < n, ∃ f ∈ logs i, ∃ stamp, Incoming.ofFrame format f = .status md.code stamp)

theorem Reported.faultless {c : Condition} (h : Reported format n logs c) (rate : Float) (md : RxMetadata) :
    Faultless format n logs (c.report rate md) := by
  rcases h with rfl | ⟨code, stamp, rfl, i, hi, f, hf, he⟩
  · exact ⟨rfl, by rintro (h | h) <;> cases h⟩
  · cases stamp <;> exact ⟨rfl, fun _ => ⟨i, hi, f, hf, _, he⟩⟩

/-- What is known of a session whose frames are those of some logs. -/
def Faithful {S : Type} (format : WireFormat) (n : Nat) (logs : Nat → List Bytes) (rs : List (RxReturn S))
    (kept : Option Condition) (ts : List Track) : Prop :=
  ts.length = n ∧ ((∀ t ∈ ts, Begins n logs t.taken) → Abreast format ts ∧
    (∀ c ∈ kept, Reported format n logs c) ∧
    ∀ y ∈ rs, ∀ m, y.outcome = .ok m → Faultless format n logs y.metadata)

theorem faithful_calls {S σ : Type} [HostSample S] (hlogs : ∀ i < n, Steady format tick (logs i)) {rate : Float} :
    CallInvariant (S := S) (σ := σ) RxAction.Asks format rate (Faithful format n logs) where
  misuse := by
    rintro rs kept ts e buffers md ⟨hlen, hi⟩
    refine ⟨hlen, fun hb => ⟨(hi hb).1, (hi hb).2.1, fun z hz j hj => ?_⟩⟩
    rcases List.mem_append.1 hz with hz | hz
    · exact (hi hb).2.2 z hz j hj
    · obtain rfl := List.mem_singleton.1 hz
      cases hj
  call := by
    rintro rs kept ts buffers count wait onePacket md rep ts' y hcount hC - hy ⟨hlen, hi⟩
    have hI := abreast_invariant hlogs
    refine ⟨by rw [List.length_map, hC.length, hlen], fun hb => ?_⟩
    have hb' : ∀ t ∈ ts', Begins n logs t.taken := fun t ht => hb t.turn (List.mem_map_of_mem ht)
    -- frames that are taken later change nothing for what was known before
    obtain ⟨ha, hk, hr⟩ := hi (hI.back hC.grows hb')
    obtain ⟨m, hm'⟩ := hI.call (fun hz => absurd hcount (by simp [RxAction.Asks, hz])) hC hb' ha
    obtain ⟨hkept, hreport⟩ := hI.conditions hcount hC hb' ha hk
    refine ⟨⟨m, fun t ht => ?_⟩, hkept, fun z hz j hj => ?_⟩
    · obtain ⟨u, hu, rfl⟩ := List.mem_map.1 ht
      obtain ⟨hs, hl, hlen⟩ := hm' u hu
      exact ⟨hs.turn, hl.turn, by rw [← hlen, Track.turn, Track.total, List.append_nil]⟩
    · rcases List.mem_append.1 hz with hz | hz
      · exact hr z hz j hj
      · obtain rfl := List.mem_singleton.1 hz
        rw [hy.metadata]
        rcases hreport with ⟨hcode, ho⟩ | ⟨-, c, hc, hmd⟩
        · exact ⟨ho, by rw [hcode]; rintro (h | h) <;> cases h⟩
        · rw [hmd]
          exact hc.faultless rate _

theorem faithful_blank {S : Type} {sizes : List Nat} :
    Faithful (S := S) format sizes.length logs [] none (sizes.map fun _ => {}) := by
  refine ⟨List.length_map _, fun _ => ⟨⟨0, fun t ht => ?_⟩, by simp, by simp⟩⟩
  obtain ⟨_, -, rfl⟩ := List.mem_map.1 ht
  exact ⟨Track.sound_blank, Track.lossless_blank, rfl⟩

/-- The samples handed out in a stream without gaps are those of its first ticks. -/
theorem Track.Lossless.sampleAt {t : Track} (hl : t.Lossless format) (hst : Steady format tick t.taken) {j : Nat}
    (hj : j < t.total.length) : RadioStream.sampleAt (packetsIn format t.taken) (tick + j) = some t.total[j] := by
  rw [hst.gapless.sampleAt, ← hl, List.getElem?_append_left hj, List.getElem?_eq_getElem hj]

end Several

/-- Over links whose streams have no gaps and start at one tick, however they are
cut into packets, whatever reports lie between them and whenever frames come: the
samples returned on each channel are those of the ticks from the first one on, as
many on each channel, and no call finds a fault that the device did not report. -/
theorem unequal_packets_lossless {S σ : Type} [HostSample S] (terminals : Nat → Terminal σ) {sizes : List Nat}
    {format : WireFormat} {rate : Float} {packetSamples : Nat} {r : Receiver}
    (hr : Receiver.new sizes format rate packetSamples = .ok r) (s : σ) (as : List (RxAction S σ))
    (hask : ∀ a ∈ as, a.Asks) {tick : Nat}
    (hlogs : ∀ i < sizes.length, Steady format tick (RxSession.framesTaken terminals ⟨r, s, []⟩ as i)) :
    let x : RxSession S σ := ⟨r, s, []⟩
    (∃ k, ∀ i < sizes.length, ((x.run terminals as).returned i).length = k ∧
      ∀ j < k, ∃ v, sampleAt (packetsIn format (x.framesTaken terminals as i)) (tick + j) = some v ∧
        ((x.run terminals as).returned i)[j]? = some (HostSample.ofRaw v)) ∧
    ∀ y ∈ (x.run terminals as).returns, ∀ m, y.outcome = .ok m →
      Faultless format sizes.length (x.framesTaken terminals as) y.metadata := by
  intro x
  have hstart : Reaches terminals format rate (Faithful format sizes.length (x.framesTaken terminals as)) x.record :=
    reaches_new hr s faithful_blank
  obtain ⟨-, -, ts, hd, hlen, hi⟩ := hstart.run (faithful_calls hlogs) as hask
  have hb : ∀ t ∈ ts, Begins sizes.length (x.framesTaken terminals as) t.taken := by
    intro t ht
    obtain ⟨i, hi⟩ := List.mem_iff_getElem?.1 ht
    refine ⟨i, hlen ▸ (List.getElem?_eq_some_iff.1 hi).1, ?_⟩
    exact (hd.plain hi).2.1 ▸ List.prefix_refl _
  obtain ⟨⟨k, hk⟩, -, hfault⟩ := hi hb
  refine ⟨⟨k, fun i hlt => ?_⟩, fun y hy => hfault y ?_⟩
  · have ht := List.getElem?_eq_getElem (hlen.symm ▸ hlt : i < ts.length)
    obtain ⟨hret, htaken, -⟩ := hd.plain ht
    obtain ⟨-, hl, hlk⟩ := hk _ (List.mem_of_getElem? ht)
    have hst := hlogs i hlt
    rw [htaken] at hst
    rw [hret, htaken, List.length_map, hlk]
    refine ⟨rfl, fun j hj => ⟨_, hl.sampleAt hst (hlk ▸ hj), ?_⟩⟩
    rw [List.getElem?_map, List.getElem?_eq_getElem (hlk ▸ hj), Option.map_some]
  · rw [← RxSession.erase_runRecorded] at hy
    exact hy

/-- Five samples a channel, cut into three packets and into two with a report of the
device between them, taken by calls for two samples and for four. -/
theorem unequal_packets_lossless_reported :
    let packet (sequence : UInt16) (tick : UInt64) (xs : List (Iq Int16)) : Bytes :=
      DataPacket.bytes .sc16 { hasTime := true, sequence, timestamp := tick } xs
    let links := [
      [packet 65535 100 [⟨1, 0⟩, ⟨2, 0⟩, ⟨3, 0⟩], packet 0 103 [], packet 1 103 [⟨4, 0⟩, ⟨5, 0⟩]],
      [packet 7 100 [⟨1, 1⟩, ⟨2, 1⟩], (RxCode.encode .overflow none (List.replicate 20 0)).frame,
        packet 8 102 [⟨3, 1⟩, ⟨4, 1⟩, ⟨5, 1⟩]]]
    let r : Receiver := { channels := [{}, {}], format := .sc16, rate := 1, packetSamples := 8 }
    let x : RxSession (Iq Int16) (List (List Bytes)) := ⟨r, links, []⟩
    let as := [2, 4, 4, 4, 4].map fun n =>
      RxAction.recv [List.replicate 4 ⟨0, 0⟩, List.replicate 4 ⟨0, 0⟩] n 0 false {}
    let y := x.run Terminal.scripted as
    Receiver.new [64, 64] .sc16 1 8 = .ok r ∧ (∀ a ∈ as, a.Asks) ∧
      (∀ i < 2, Steady .sc16 100 (x.framesTaken Terminal.scripted as i)) ∧
      (∀ z ∈ y.returns, ∀ m, z.outcome = .ok m →
        Faultless .sc16 2 (x.framesTaken Terminal.scripted as) z.metadata) ∧
      y.returned 0 = [⟨1, 0⟩, ⟨2, 0⟩, ⟨3, 0⟩, ⟨4, 0⟩, ⟨5, 0⟩] ∧
      y.returned 1 = [⟨1, 1⟩, ⟨2, 1⟩, ⟨3, 1⟩, ⟨4, 1⟩, ⟨5, 1⟩] := by
  intro packet links r x as y
  have hr : Receiver.new [64, 64] .sc16 1 8 = .ok r := rfl
  have hask : ∀ a ∈ as, a.Asks := by simp [as, RxAction.Asks]
  have hlogs : ∀ i < 2, Steady .sc16 100 (x.framesTaken Terminal.scripted as i) := by decide +kernel
  exact ⟨hr, hask, hlogs, (unequal_packets_lossless Terminal.scripted hr links as hask hlogs).2,
    by decide +kernel, by decide +kernel⟩

end RadioStream
