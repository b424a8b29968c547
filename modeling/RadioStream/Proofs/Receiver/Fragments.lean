import RadioStream.Proofs.Receiver.Complete
import RadioStream.Proofs.Receiver.EndOfBurst
/-!
# Fragments and bursts on one channel

The packets of one channel are a stream, and a call takes slices of it: one of each packet
that it comes by, from the place where the call before it stopped to the place where the
next one goes on. `Reads` relates the slices to the two places. A slice in front of another
one uses its packet up.

What the metadata of a call says is read off its slices (`RxMetadata.Exact`): the begin of a
burst, the time and the fragment offset off the first of them, the end of a burst and whether
fragments are left off the last, the ends of vectors off all. `Call.reads` shows this for a
call, and `single_channel_metadata_exact` for the calls of a session, whatever lies between
the packets.
-/

namespace RadioStream

/-! ## Slices of a stream of packets -/

/-- Samples of one packet that a call hands out. -/
structure Slice where
  packet : DataPacket
  /-- Samples of the packet handed out before. -/
  offset : Nat
  count : Nat

namespace Slice

/-- The packet is used up with this slice. -/
def ends (c : Slice) : Bool := c.offset + c.count == c.packet.samples.length

/-- The slice begins a burst. -/
def beginsBurst (c : Slice) : Bool := c.packet.header.startOfBurst && c.offset == 0

/-- The slice ends a burst. -/
def endsBurst (c : Slice) : Bool := c.ends && c.packet.header.endOfBurst

def samples (c : Slice) : List (Iq Int16) := (c.packet.samples.drop c.offset).take c.count

/-- The slice can stand behind another one in a call: that one uses its packet up without
ending a burst, and this one begins none. -/
def Follows (b c : Slice) : Prop := b.ends = true ∧ b.packet.header.endOfBurst = false ∧ c.beginsBurst = false

end Slice

/-- The slices that use their packets up, without the values of their samples. -/
def endedOf (cut : List Slice) : List Outline := (cut.filter Slice.ends).map fun c => ⟨c.packet.header, c.count⟩

theorem endedOf_cons {c : Slice} (h : c.ends = true) (cut : List Slice) :
    endedOf (c :: cut) = ⟨c.packet.header, c.count⟩ :: endedOf cut := by
  simp [endedOf, h]

/-- A place in a stream of packets: how many are used up, and how many samples of the next
one were handed out. -/
structure Cursor where
  packets : Nat
  offset : Nat

/-- The slices lead from one place of a stream to another. -/
inductive Reads (ps : List DataPacket) : Cursor → List Slice → Cursor → Prop
  | done {c : Cursor} : Reads ps c [] c
  | within {p : DataPacket} {k o n : Nat} : ps[k]? = some p → 0 < n → o + n < p.samples.length →
      Reads ps ⟨k, o⟩ [⟨p, o, n⟩] ⟨k, o + n⟩
  | through {p : DataPacket} {k o n : Nat} {cut : List Slice} {c : Cursor} : ps[k]? = some p →
      o + n = p.samples.length → Reads ps ⟨k + 1, 0⟩ cut c → Reads ps ⟨k, o⟩ (⟨p, o, n⟩ :: cut) c

namespace Reads

variable {ps qs : List DataPacket} {a b c : Cursor} {cut : List Slice} {x : Slice}

theorem mono (h : Reads ps a cut b) (hp : ps <+: qs) : Reads qs a cut b := by
  obtain ⟨rs, rfl⟩ := hp
  have hget : ∀ {k : Nat} {p : DataPacket}, ps[k]? = some p → (ps ++ rs)[k]? = some p := by
    intro k p hk
    rwa [List.getElem?_append_left (List.getElem?_eq_some_iff.1 hk).1]
  induction h with
  | done => exact .done
  | within hk hn hlt => exact .within (hget hk) hn hlt
  | through hk he _ ih => exact .through (hget hk) he ih

/-- A slice that uses its packet up may be followed by others. -/
theorem cons (h : Reads ps a [x] b) (hr : Reads ps b cut c) (hx : x.ends = false → cut = []) :
    Reads ps a (x :: cut) c := by
  cases h with
  | @within p k o n hk hn hlt =>
    have hne : (Slice.mk p o n).ends = false := by simp [Slice.ends, Nat.ne_of_lt hlt]
    obtain rfl := hx hne
    cases hr
    exact .within hk hn hlt
  | through hk he hd =>
    cases hd
    exact .through hk he hr

end Reads

namespace Cursor

/-- How many packets have begun before a place. -/
def reach (c : Cursor) : Nat := if c.offset = 0 then c.packets else c.packets + 1

/-- The packets that have begun before a place. -/
def begun (ps : List DataPacket) (c : Cursor) : List DataPacket := ps.take c.reach

/-- The packets used up before a place. -/
def usedUp (ps : List DataPacket) (c : Cursor) : List DataPacket := ps.take c.packets

/-- The samples before a place. -/
def before (ps : List DataPacket) (c : Cursor) : List (Iq Int16) :=
  samplesOf (c.usedUp ps) ++ ((ps[c.packets]?.map (·.samples)).getD []).take c.offset

/-- The packets of a place do not change when more come in. -/
theorem mono {ps qs : List DataPacket} (h : ps <+: qs) {c : Cursor} (hc : c.reach ≤ ps.length) :
    c.begun qs = c.begun ps ∧ c.usedUp qs = c.usedUp ps ∧ c.before qs = c.before ps := by
  obtain ⟨rs, rfl⟩ := h
  have hle : c.packets ≤ ps.length := by
    rw [reach] at hc
    split at hc <;> omega
  have hu : c.usedUp (ps ++ rs) = c.usedUp ps := List.take_append_of_le_length hle
  refine ⟨List.take_append_of_le_length hc, hu, ?_⟩
  rw [before, before, hu]
  by_cases ho : c.offset = 0
  · rw [ho, List.take_zero, List.take_zero]
  · rw [reach, if_neg ho] at hc
    rw [List.getElem?_append_left hc]

end Cursor

namespace Reads

variable {ps : List DataPacket} {a b : Cursor} {cut : List Slice}

/-- What is before a place are the samples of the slices that lead there. -/
theorem before_eq (h : Reads ps a cut b) : b.before ps = a.before ps ++ cut.flatMap (·.samples) := by
  induction h with
  | done => simp
  | @within p k o n hk _ _ =>
    simp [Cursor.before, Cursor.usedUp, Slice.samples, hk, List.take_add]
  | @through p k o n cut c hk he _ ih =>
    have hp : (p.samples.drop o).take n = p.samples.drop o := by
      rw [List.take_of_length_le]
      rw [List.length_drop]
      omega
    have hone : (Cursor.mk (k + 1) 0).before ps = (Cursor.mk k o).before ps ++ (Slice.mk p o n).samples := by
      rw [Slice.samples, hp]
      simp [Cursor.before, Cursor.usedUp, hk, List.take_add_one]
    rw [ih, hone, List.flatMap_cons, List.append_assoc]

/-- Each slice that begins a burst is the begin of a packet that does. -/
theorem begun_count (h : Reads ps a cut b) :
    (b.begun ps).countP (·.header.startOfBurst) =
      (a.begun ps).countP (·.header.startOfBurst) + cut.countP Slice.beginsBurst := by
  have hone : ∀ {k : Nat} {p : DataPacket} (o n : Nat), ps[k]? = some p →
      (ps.take (k + 1)).countP (·.header.startOfBurst) = ((Cursor.mk k o).begun ps).countP (·.header.startOfBurst) +
        [Slice.mk p o n].countP Slice.beginsBurst := by
    intro k p o n hk
    by_cases ho : o = 0
    · simp [Cursor.begun, Cursor.reach, Slice.beginsBurst, ho, hk, List.take_add_one, List.countP_singleton]
    · simp [Cursor.begun, Cursor.reach, Slice.beginsBurst, ho]
  induction h with
  | done => simp
  | @within p k o n hk hn _ =>
    rw [← hone o n hk, Cursor.begun, Cursor.reach, if_neg (by simp only; omega)]
  | @through p k o n cut c hk _ _ ih =>
    rw [ih, ← List.singleton_append, List.countP_append, ← Nat.add_assoc, ← hone o n hk]
    rfl

/-- Each slice that ends a burst is the end of a packet that does. -/
theorem usedUp_count (h : Reads ps a cut b) :
    (b.usedUp ps).countP (·.header.endOfBurst) =
      (a.usedUp ps).countP (·.header.endOfBurst) + cut.countP Slice.endsBurst := by
  induction h with
  | done => simp
  | @within p k o n hk _ hlt =>
    have he : (Slice.mk p o n).endsBurst = false := by simp [Slice.endsBurst, Slice.ends, Nat.ne_of_lt hlt]
    simp [Cursor.usedUp, he]
  | @through p k o n cut c hk he _ ih =>
    have hone : ((Cursor.mk (k + 1) 0).usedUp ps).countP (·.header.endOfBurst) =
        ((Cursor.mk k o).usedUp ps).countP (·.header.endOfBurst) + [Slice.mk p o n].countP Slice.endsBurst := by
      simp [Cursor.usedUp, Slice.endsBurst, Slice.ends, he, hk, List.take_add_one, List.countP_singleton]
    rw [ih, hone, Nat.add_assoc, ← List.countP_append, List.singleton_append]

end Reads

/-! ## A track reads its packets -/

/-- The place that a channel has come to in the stream of its packets. -/
def Track.cursor (format : WireFormat) (t : Track) : Cursor :=
  match t.channel.held with
  | some h => ⟨(packetsIn format t.taken).length - 1, h.offset⟩
  | none => ⟨(packetsIn format t.taken).length, 0⟩

section Tracks

variable {format : WireFormat} {t : Track}

theorem Track.cursor_reach (hs : t.Sound format) : (t.cursor format).reach ≤ (packetsIn format t.taken).length := by
  unfold Track.cursor
  cases hh : t.channel.held with
  | none => exact Nat.le_refl _
  | some h =>
    obtain ⟨p, hp, -⟩ := hs.held h hh
    obtain ⟨ps, hps⟩ := List.getLast?_eq_some_iff.1 hp
    simp only [Cursor.reach, hps, List.length_append, List.length_singleton]
    split <;> omega

/-- A packet that comes in is the next one of the stream. -/
theorem Fetched.cursor {t' : Track} {k : Option Condition} (hf : Fetched format t k t') :
    t'.cursor format = t.cursor format := by
  have hpass : ∀ {frame}, DataPacket.ofFrame? format frame = none → (t.pass frame).cursor format = t.cursor format := by
    intro frame hp
    unfold Track.cursor
    rw [Track.packetsIn_pass hp]
    rfl
  cases hf with
  | kept | silence => rfl
  | malformed _ _ hi => exact hpass (DataPacket.ofFrame?_eq_none (by simp [hi]))
  | status _ _ hi => exact hpass (DataPacket.ofFrame?_eq_none (by simp [hi]))
  | @data f h n hn _ hi =>
    obtain ⟨p, hp, rfl, -⟩ := Held.exists_of hi
    have hheld : (t.hold f p.header n).channel.held = some { frame := f, header := p.header, samples := n } := rfl
    unfold Track.cursor
    rw [hheld, hn, Track.packetsIn_hold hp, List.length_append, List.length_singleton, Nat.add_sub_cancel]

theorem Track.cursor_advance {n : Nat} {h : Held} (hh : t.channel.held = some h) :
    (t.advance format n).cursor format =
      if h.remaining - n = 0 then ⟨(packetsIn format t.taken).length, 0⟩
      else ⟨(packetsIn format t.taken).length - 1, h.offset + n⟩ := by
  have hr : ({ h with offset := h.offset + n } : Held).remaining = h.remaining - n := by
    simp only [Held.remaining]
    omega
  unfold Track.cursor
  rw [Track.taken_advance]
  unfold Track.advance
  rw [hh]
  dsimp only
  rw [hr]
  by_cases hz : h.remaining - n = 0
  · simp only [hz, if_true]
  · simp only [hz, if_false]

/-- Alignment of one channel brings in frames and does no more. -/
theorem Path.of_single {ks : List Condition} {ts' : List Track} (h : Path format [t] ks ts') (hs : t.Sound format) :
    ∃ t', ts' = [t'] ∧ t'.Sound format ∧ t'.cursor format = t.cursor format ∧ t'.given = t.given ∧
      t.taken <+: t'.taken := by
  refine h.keeps (I := fun us => ∃ u, us = [u] ∧ u.Sound format ∧ u.cursor format = t.cursor format ∧
    u.given = t.given ∧ t.taken <+: u.taken) ?_ ⟨t, rfl, hs, rfl, rfl, List.prefix_rfl⟩
  rintro us k us' hstep ⟨u, rfl, hu, hc, hg, hp⟩
  obtain ⟨k, u', rfl, hf⟩ := hstep.single
  exact ⟨u', rfl, hf.sound hu, hf.cursor.trans hc, hf.given.trans hg, hp.trans hf.grows⟩

/-- The slice that a portion is. -/
structure Slice.Of (p : Portion) (c : Slice) : Prop where
  header : p.header = c.packet.header
  offset : p.offset = c.offset
  count : p.count = c.count
  exhausted : p.exhausted = c.ends

/-- A portion of samples is a slice of the next packet. -/
theorem Portion.Of.reads {p : Portion} {most : Nat} (ho : p.Of format most [t]) (hs : t.Sound format) (hm : 0 < most) :
    ∃ c : Slice, c.Of p ∧ (t.advance format p.count).given = t.given ++ c.samples ∧
      (t.advance format p.count).Sound format ∧
      Reads (packetsIn format t.taken) (t.cursor format) [c] ((t.advance format p.count).cursor format) := by
  obtain ⟨h, hlead, hheader, hoffset⟩ := ho.lead
  have hh : t.channel.held = some h := hlead
  obtain ⟨q, hq, hof, hu⟩ := hs.unread_eq hh
  have hroom : p.count ≤ h.remaining := ho.room t List.mem_cons_self h hh
  have hoff := hof.offset
  rw [hof.samples] at hoff
  have hrem : h.remaining = q.samples.length - h.offset := by rw [Held.remaining, hof.samples]
  obtain ⟨qs, hqs⟩ := List.getLast?_eq_some_iff.1 hq
  have hget : (packetsIn format t.taken)[qs.length]? = some q := by simp [hqs]
  have hcur : t.cursor format = ⟨qs.length, h.offset⟩ := by
    rw [Track.cursor, hh]
    simp [hqs]
  have hex : p.exhausted = (h.remaining - p.count == 0) := by
    rw [ho.exhausted]
    simp only [List.map_cons, List.map_nil, List.all_cons, List.all_nil, Bool.and_true, isNone_advance hh]
  refine ⟨⟨q, h.offset, p.count⟩, ⟨hheader.trans hof.header, hoffset, rfl, ?_⟩, ?_, ?_, ?_⟩
  · rw [hex, Slice.ends, Bool.eq_iff_iff, beq_iff_eq, beq_iff_eq]
    dsimp only
    omega
  · rw [Track.given_advance, hu]
    rfl
  · refine hs.advance fun g hg => ?_
    rw [hh] at hg
    cases hg
    exact hroom
  · rw [hcur]
    rcases Nat.lt_or_ge p.count h.remaining with hlt | hge
    · -- what is left of the packet is more than there was room for
      have hpos : 0 < p.count := by
        by_contra hz
        obtain ⟨u, hu, g, hg, hr⟩ := ho.least (by omega)
        rw [List.mem_singleton.1 hu, hh] at hg
        cases hg
        omega
      rw [Track.cursor_advance hh, if_neg (by omega),
        show (packetsIn format t.taken).length - 1 = qs.length by simp [hqs]]
      exact .within hget hpos (by omega)
    · rw [Track.cursor_advance hh, if_pos (by omega),
        show (packetsIn format t.taken).length = qs.length + 1 by simp [hqs]]
      exact .through hget (by omega) .done

end Tracks

/-! ## What a call says of its slices -/

/-- The metadata of a call that takes some slices, with the room that it was given for the
ends of vectors. -/
structure RxMetadata.Exact (md : RxMetadata) (rate : Float) (asked : RxMetadata) (cut : List Slice) : Prop where
  startOfBurst : md.startOfBurst = cut.head?.any Slice.beginsBurst
  endOfBurst : md.endOfBurst = cut.getLast?.any Slice.endsBurst
  moreFragments : md.moreFragments = cut.getLast?.any fun c => !c.ends
  first : ∀ c ∈ cut.head?, md.fragmentOffset = c.offset ∧ md.hasTime = c.packet.header.hasTime ∧
    md.time = Instant.ofTicks ((c.packet.header.timestamp.toNat + c.offset : Nat) : Int) rate
  vectors : md.eov.map (fun e => (e.limit, e.positions)) =
    asked.eov.map fun e => (e.limit, (vectorEnds 0 (endedOf cut)).take e.limit)

theorem EovPositions.limit_pushAll (xs : List Nat) (e : EovPositions) : (e.pushAll xs).limit = e.limit := by
  induction xs generalizing e with
  | nil => rfl
  | cons x xs ih => exact (ih (e.push x)).trans (e.positions_push x).1

/-- The positions noted in a call are as many as there is room for. -/
theorem map_pushAll_clear (xs : List Nat) (e : Option EovPositions) :
    ((e.map EovPositions.clear).map (EovPositions.pushAll xs)).map (fun e => (e.limit, e.positions)) =
      e.map fun e => (e.limit, xs.take e.limit) := by
  cases e with
  | none => rfl
  | some e =>
    simp only [Option.map_some, EovPositions.limit_pushAll, EovPositions.positions_pushAll, EovPositions.clear,
      List.nil_append]

/-- A condition is reported beside what is said of the samples. -/
theorem report_eq (c : Condition) (rate : Float) (md : RxMetadata) :
    ∃ code outOfSequence hasTime time, c.report rate md = { md with code, outOfSequence, hasTime, time } := by
  cases c with
  | status code tick => cases tick <;> exact ⟨_, _, _, _, rfl⟩
  | silence | malformed | gap | misaligned => exact ⟨_, _, _, _, rfl⟩

/-- A call that takes nothing says nothing of bursts. -/
theorem exact_report (rate : Float) (asked : RxMetadata) (c : Condition) :
    (c.report rate asked.reset).Exact rate asked [] := by
  obtain ⟨code, outOfSequence, hasTime, time, he⟩ := report_eq c rate asked.reset
  rw [he]
  refine ⟨rfl, rfl, rfl, by simp, ?_⟩
  rw [RxMetadata.reset]
  cases asked.eov <;> simp [EovPositions.clear, endedOf, vectorEnds]

theorem Slice.Of.noteVector {p : Portion} {c : Slice} (h : c.Of p) (total : Nat) (md : RxMetadata) :
    Receiver.noteVector p (total + p.count) md =
      { md with eov := md.eov.map (EovPositions.pushAll (vectorEnds total (endedOf [c]))) } := by
  cases hx : c.ends with
  | true =>
    rw [noteVector_of_exhausted (h.exhausted.trans hx), endedOf_cons hx, h.header, h.count]
    simp [vectorEnds, endedOf]
  | false =>
    have hmap : md.eov.map (EovPositions.pushAll []) = md.eov := Option.map_id_apply
    have hnone : endedOf [c] = [] := by simp [endedOf, hx]
    rw [hnone, vectorEnds, hmap, Receiver.noteVector, h.exhausted, hx]
    rfl

theorem vectorEnds_endedOf (total : Nat) {c : Slice} {cut : List Slice} (hx : c.ends = false → cut = []) :
    vectorEnds total (endedOf (c :: cut)) =
      vectorEnds total (endedOf [c]) ++ vectorEnds (total + c.count) (endedOf cut) := by
  cases he : c.ends with
  | true =>
    rw [endedOf_cons he, endedOf_cons he]
    simp [vectorEnds, endedOf]
  | false =>
    rw [hx he]
    simp [endedOf, vectorEnds]

section Calls

variable {format : WireFormat} {count : Nat}

/-- A call that has come to a track with slice `c` as its last one goes on with others. -/
structure Gathering.Cuts (format : WireFormat) (g : Gathering) (t : Track) (c : Slice) (cut : List Slice)
    (g' : Gathering) (t' : Track) : Prop where
  tracks : g'.tracks = [t']
  sound : t'.Sound format
  grows : t.taken <+: t'.taken
  alone : c.ends = false → cut = []
  reads : Reads (packetsIn format t'.taken) (t.cursor format) cut (t'.cursor format)
  chain : (c :: cut).IsChain Slice.Follows
  last : ∃ d, (c :: cut).getLast? = some d ∧ d.Of g'.last
  total : g'.total = g.total + (cut.map (·.count)).sum
  given : t'.given = t.given ++ cut.flatMap (·.samples)
  metadata : g'.metadata =
    { g.metadata with eov := g.metadata.eov.map (EovPositions.pushAll (vectorEnds g.total (endedOf cut))) }

/-- A call that stops adds no slice. -/
theorem Gathering.cuts_nil {g : Gathering} {t t' : Track} {c : Slice} {ts : List Track} (hc : c.Of g.last)
    (ht : ts = [t']) (hs : t'.Sound format) (hcur : t'.cursor format = t.cursor format) (hg : t'.given = t.given)
    (hp : t.taken <+: t'.taken) : g.Cuts format t c [] { g with tracks := ts } t' where
  tracks := ht
  sound := hs
  grows := hp
  alone _ := rfl
  reads := hcur ▸ .done
  chain := .singleton c
  last := ⟨c, rfl, hc⟩
  total := rfl
  given := by simp [hg]
  metadata := by
    have hmap : g.metadata.eov.map (EovPositions.pushAll []) = g.metadata.eov := Option.map_id_apply
    simp only [endedOf, List.filter_nil, List.map_nil, vectorEnds, hmap]

/-- A call goes on with slices that follow each other. -/
theorem Gathered.cuts {fuel : Nat} {g g' : Gathering} {k : Option Condition} (h : Gathered format count fuel g k g')
    {t : Track} (ht : g.tracks = [t]) (hs : t.Sound format) {c : Slice} (hc : c.Of g.last) :
    ∃ t' cut, g.Cuts format t c cut g' t' := by
  induction h generalizing t c with
  | stop => exact ⟨t, [], Gathering.cuts_nil hc ht hs rfl rfl List.prefix_rfl⟩
  | refused _ hp | burst _ hp =>
    rw [ht] at hp
    obtain ⟨t', hts, hs', hcur, hg, hpre⟩ := hp.of_single hs
    exact ⟨t', [], Gathering.cuts_nil hc hts hs' hcur hg hpre⟩
  | @more fuel g g' ts p k hw hp _ hb ho _ ih =>
    rw [ht] at hp
    obtain ⟨t₁, rfl, hs₁, hcur, hg, hpre⟩ := hp.of_single hs
    have hlt := hw.lt
    obtain ⟨d, hd, hgiven, hs₂, hread⟩ := ho.reads hs₁ (by omega)
    obtain ⟨t', cut, hcut⟩ := ih (t := t₁.advance format p.count) (c := d) rfl hs₂ hd
    -- the call goes on only behind a packet that is used up and ends no burst
    rw [Gathering.Wants, hc.exhausted, hc.header, Bool.and_eq_true, Bool.and_eq_true, Bool.not_eq_true'] at hw
    obtain ⟨⟨hex, hnb⟩, -⟩ := hw
    have hfollows : Slice.Follows c d := by
      obtain ⟨lead, hlead, hh, hoff⟩ := ho.lead
      rw [hlead, Option.any_some, Held.startsBurst, ← hh, ← hoff, hd.header, hd.offset] at hb
      exact ⟨hex, hnb, hb⟩
    have hpre' := hcut.grows
    rw [Track.taken_advance] at hpre'
    rw [hcur] at hread
    refine ⟨t', d :: cut, ?_⟩
    constructor
    · exact hcut.tracks
    · exact hcut.sound
    · exact hpre.trans hpre'
    · intro hx
      rw [hex] at hx
      cases hx
    · exact (hread.mono (packetsIn_mono format hpre')).cons hcut.reads hcut.alone
    · exact .cons_cons hfollows hcut.chain
    · rw [List.getLast?_cons_cons]
      exact hcut.last
    · rw [hcut.total, List.map_cons, List.sum_cons, ← hd.count, ← Nat.add_assoc]
      rfl
    · rw [hcut.given, hgiven, hg, List.flatMap_cons, List.append_assoc]
    · rw [hcut.metadata, Gathering.add]
      dsimp only
      rw [hd.noteVector, vectorEnds_endedOf g.total hcut.alone, hd.count]
      dsimp only
      rw [EovPositions.map_pushAll]

theorem Slice.Of.opening {p : Portion} {c : Slice} (h : c.Of p) (rate : Float) (md : RxMetadata) :
    p.opening rate md = { md.reset with
      hasTime := c.packet.header.hasTime
      time := Held.timeAt c.packet.header c.offset rate
      startOfBurst := c.beginsBurst
      fragmentOffset := c.offset
      eov := (md.eov.map EovPositions.clear).map (EovPositions.pushAll (vectorEnds 0 (endedOf [c]))) } := by
  have hnote := h.noteVector 0 { md.reset with
    hasTime := p.header.hasTime
    time := Held.timeAt p.header p.offset rate
    startOfBurst := p.header.startOfBurst && p.offset == 0
    fragmentOffset := p.offset }
  rw [Nat.zero_add] at hnote
  rw [Portion.opening, hnote, h.header, h.offset]
  rfl

/-- The metadata is exact for the slice that a call begins with and those that it goes on
with. -/
theorem Gathering.Cuts.exact {rate : Float} {md : RxMetadata} {p : Portion} {ts : List Track} {g : Gathering}
    {t t' : Track} {c : Slice} {cut : List Slice}
    (h : Gathering.Cuts format ⟨ts, p, p.count, p.opening rate md⟩ t c cut g t') (hc : c.Of p) :
    RxMetadata.Exact { g.metadata with
      moreFragments := !g.last.exhausted
      endOfBurst := g.last.exhausted && g.last.header.endOfBurst } rate md (c :: cut) := by
  obtain ⟨d, hlast, hd⟩ := h.last
  have hmd := h.metadata
  dsimp only at hmd
  rw [hc.opening] at hmd
  dsimp only at hmd
  rw [EovPositions.map_pushAll, hc.count, ← Nat.zero_add c.count, ← vectorEnds_endedOf 0 h.alone] at hmd
  constructor
  · dsimp only
    rw [hmd]
    rfl
  · dsimp only
    rw [hd.exhausted, hd.header, hlast]
    rfl
  · dsimp only
    rw [hd.exhausted, hlast]
    rfl
  · intro x hx
    cases hx
    dsimp only
    rw [hmd]
    exact ⟨rfl, rfl, Held.timeAt_eq _ _ _⟩
  · dsimp only
    rw [hmd]
    exact map_pushAll_clear _ _

/-- A call for samples takes slices that follow each other, and says of them what they are. -/
theorem Call.reads {rate : Float} {onePacket : Bool} {md : RxMetadata} {kept : Option Condition} {t : Track}
    {rep : RxReport} {ts' : List Track} (hC : Call format rate count onePacket md kept [t] rep ts') (hcount : 0 < count)
    (hs : t.Sound format) (hg : t.given = []) :
    ∃ t' cut, ts' = [t'] ∧ t'.Sound format ∧ t.taken <+: t'.taken ∧
      Reads (packetsIn format t'.taken) (t.cursor format) cut (t'.cursor format) ∧ cut.IsChain Slice.Follows ∧
      rep.count = (cut.map (·.count)).sum ∧ t'.given = cut.flatMap (·.samples) ∧ rep.metadata.Exact rate md cut := by
  cases hC with
  | @told _ c => exact ⟨t, [], rfl, hs, List.prefix_rfl, .done, .nil, rfl, by simp [hg], exact_report rate md c⟩
  | polled hz => omega
  | @refused _ _ c _ hp =>
    obtain ⟨t', rfl, hs', hcur, hg', hpre⟩ := hp.of_single hs
    exact ⟨t', [], rfl, hs', hpre, hcur ▸ .done, .nil, rfl, by simp [hg', hg], exact_report rate md c⟩
  | @delivered _ ts₁ p fuel k g _ hp _ ho _ hG =>
    obtain ⟨t₁, rfl, hs₁, hcur, hg₁, hpre⟩ := hp.of_single hs
    obtain ⟨c, hc, hgiven, hs₂, hread⟩ := ho.reads hs₁ hcount
    obtain ⟨t', cut, hcut⟩ := hG.cuts (t := t₁.advance format p.count) (c := c) rfl hs₂ hc
    have hpre' := hcut.grows
    rw [Track.taken_advance] at hpre'
    rw [hcur] at hread
    refine ⟨t', c :: cut, hcut.tracks, hcut.sound, hpre.trans hpre',
      (hread.mono (packetsIn_mono format hpre')).cons hcut.reads hcut.alone, hcut.chain, ?_, ?_, hcut.exact hc⟩
    · rw [List.map_cons, List.sum_cons, ← hc.count]
      exact hcut.total
    · rw [hcut.given, hgiven, hg₁, hg, List.flatMap_cons, List.nil_append]

end Calls

/-! ## Sessions -/

/-- Of slices that follow each other only the first may begin a burst. -/
theorem countP_beginsBurst {cut : List Slice} (h : cut.IsChain Slice.Follows) :
    cut.countP Slice.beginsBurst = (cut.head?.any Slice.beginsBurst).toNat := by
  induction h with
  | nil => rfl
  | singleton c =>
    rw [List.countP_singleton, List.head?_cons, Option.any_some]
    cases c.beginsBurst <;> rfl
  | @cons_cons c d cut hcd _ ih =>
    rw [List.head?_cons, Option.any_some, hcd.2.2] at ih
    rw [List.countP_cons, ih, List.head?_cons, Option.any_some]
    cases c.beginsBurst <;> rfl

/-- Of slices that follow each other only the last may end a burst. -/
theorem countP_endsBurst {cut : List Slice} (h : cut.IsChain Slice.Follows) :
    cut.countP Slice.endsBurst = (cut.getLast?.any Slice.endsBurst).toNat := by
  induction h with
  | nil => rfl
  | singleton c =>
    rw [List.countP_singleton, List.getLast?_singleton, Option.any_some]
    cases c.endsBurst <;> rfl
  | @cons_cons c d cut hcd _ ih =>
    have hno : ¬c.endsBurst = true := by simp [Slice.endsBurst, hcd.2.1]
    rw [List.countP_cons_of_neg hno, ih, List.getLast?_cons_cons]

/-- The call reports the begin of a burst. -/
def RxReturn.startsBurst {S : Type} (y : RxReturn S) : Bool := y.outcome.isOk && y.metadata.startOfBurst

/-- The call reports the end of a burst. -/
def RxReturn.endsBurst {S : Type} (y : RxReturn S) : Bool := y.outcome.isOk && y.metadata.endOfBurst

/-- What calls have returned and reported up to a place in a stream of packets: the samples
before it, as many begins of bursts as there are in front of it and as many ends. -/
structure Tallies {S : Type} [HostSample S] (ps : List DataPacket) (c : Cursor) (rs : List (RxReturn S)) : Prop where
  samples : rs.flatMap (·.samples 0) = (c.before ps).map HostSample.ofRaw
  starts : rs.countP RxReturn.startsBurst = (c.begun ps).countP (·.header.startOfBurst)
  ends : rs.countP RxReturn.endsBurst = (c.usedUp ps).countP (·.header.endOfBurst)

section Sessions

variable {S σ : Type} [HostSample S] {format : WireFormat} {rate : Float}

/-- A call that does nothing is not counted. -/
theorem Tallies.misuse {ps : List DataPacket} {c : Cursor} {rs : List (RxReturn S)} (h : Tallies ps c rs) (e : Error)
    (buffers : List (List S)) (md : RxMetadata) : Tallies ps c (rs ++ [⟨.error e, buffers, md⟩]) where
  samples := by
    rw [List.flatMap_append, h.samples]
    exact List.append_nil _
  starts := by simp [h.starts, RxReturn.startsBurst, Except.isOk, Except.toBool]
  ends := by simp [h.ends, RxReturn.endsBurst, Except.isOk, Except.toBool]

/-- A call that says of its slices what they are is counted right. -/
theorem Tallies.call {ps qs : List DataPacket} {a b : Cursor} {rs : List (RxReturn S)} (h : Tallies ps a rs)
    (hp : ps <+: qs) (ha : a.reach ≤ ps.length) {cut : List Slice} (hr : Reads qs a cut b)
    (hchain : cut.IsChain Slice.Follows) {y : RxReturn S} {n : Nat} {asked : RxMetadata} (ho : y.outcome = .ok n)
    (hs : y.samples 0 = (cut.flatMap (·.samples)).map HostSample.ofRaw) (hm : y.metadata.Exact rate asked cut) :
    Tallies qs b (rs ++ [y]) := by
  obtain ⟨hbegun, hused, hbefore⟩ := Cursor.mono hp ha
  have hok : y.outcome.isOk = true := by rw [ho]; rfl
  constructor
  · rw [List.flatMap_append, List.flatMap_singleton, h.samples, hs, hr.before_eq, hbefore, List.map_append]
  · rw [List.countP_append, h.starts, List.countP_singleton, hr.begun_count, hbegun, countP_beginsBurst hchain,
      RxReturn.startsBurst, hok, Bool.true_and, hm.startOfBurst]
    cases cut.head?.any Slice.beginsBurst <;> rfl
  · rw [List.countP_append, h.ends, List.countP_singleton, hr.usedUp_count, hused, countP_endsBurst hchain,
      RxReturn.endsBurst, hok, Bool.true_and, hm.endOfBurst]
    cases cut.getLast?.any Slice.endsBurst <;> rfl

/-- A single track that has come to a place, with what calls have told up to it. -/
def TalliedSingle (format : WireFormat) (rs : List (RxReturn S)) (ts : List Track) : Prop :=
  ∃ t, ts = [t] ∧ t.Sound format ∧ Tallies (packetsIn format t.taken) (t.cursor format) rs

theorem tallied_calls :
    CallInvariant (S := S) (σ := σ) RxAction.Asks format rate fun rs _ ts => TalliedSingle format rs ts where
  misuse := by
    rintro rs kept ts e buffers md ⟨t, rfl, hs, ht⟩
    exact ⟨t, rfl, hs, ht.misuse e buffers md⟩
  call := by
    rintro rs kept ts buffers count wait onePacket md rep ts' y hcount hC hready hy ⟨t, rfl, hs, ht⟩
    have hg : t.given = [] := List.length_eq_zero_iff.1 (hready.given t List.mem_cons_self)
    obtain ⟨t', cut, rfl, hs', hpre, hr, hchain, -, hgiven, hm⟩ := hC.reads hcount hs hg
    have hsamples : y.samples 0 = (cut.flatMap (·.samples)).map HostSample.ofRaw := by
      rw [hy.samples 0 t' rfl, hgiven]
    exact ⟨t'.turn, rfl, hs'.turn,
      ht.call (packetsIn_mono format hpre) (Track.cursor_reach hs) hr hchain hy.outcome hsamples (hy.metadata ▸ hm)⟩

/-- The call takes these slices and says of them what they are. Where its buffers do not fit
it takes none and fails. -/
def RxReturn.Cuts (y : RxReturn S) (rate : Float) (buffers : List (List S)) (count : Nat) (asked : RxMetadata)
    (cut : List Slice) : Prop :=
  if buffers.length = 1 ∧ ∀ b ∈ buffers, count ≤ b.length then
    y.outcome = .ok (cut.map (·.count)).sum ∧ y.samples 0 = (cut.flatMap (·.samples)).map HostSample.ofRaw ∧
      y.metadata.Exact rate asked cut
  else cut = [] ∧ ∃ e, y.outcome = .error e

/-- A session with a single track takes slices, call by call. -/
theorem Described.recv_cuts {terminals : Nat → Terminal σ} {L : Ledger terminals} {x : RxSession S σ} {t : Track}
    (h : Described L x [t]) (buffers : List (List S)) {count : Nat} (hcount : 0 < count) (wait : Nat)
    (onePacket : Bool) (md : RxMetadata) :
    ∃ t' cut y, Described L (x.step terminals (.recv buffers count wait onePacket md)) [t'] ∧
      (x.step terminals (.recv buffers count wait onePacket md)).returns = x.returns ++ [y] ∧
      packetsIn x.receiver.format t.taken <+: packetsIn x.receiver.format t'.taken ∧
      Reads (packetsIn x.receiver.format t'.taken) (t.cursor x.receiver.format) cut (t'.cursor x.receiver.format) ∧
      cut.IsChain Slice.Follows ∧ y.Cuts x.receiver.rate buffers count md cut := by
  by_cases ha : buffers.length = 1 ∧ ∀ b ∈ buffers, count ≤ b.length
  · obtain ⟨rep, ts', st, s', y, he, hC, hready, hy, hT⟩ := h.recv_allowed wait onePacket md ha.1 ha.2
    obtain ⟨t', cut, rfl, -, hpre, hread, hchain, hn, hgiven, hm⟩ :=
      hC.reads hcount (h.sound t List.mem_cons_self) (h.fresh t List.mem_cons_self)
    have hcuts : y.Cuts x.receiver.rate buffers count md cut := by
      rw [RxReturn.Cuts, if_pos ha, hy.outcome, hn, hy.samples 0 t' rfl, hgiven, hy.metadata]
      exact ⟨rfl, rfl, hm⟩
    rw [he]
    exact ⟨t'.turn, cut, y, h.turn hC.earlier hready hy hT, rfl, packetsIn_mono _ hpre, hread, hchain, hcuts⟩
  · have hbad : ¬(buffers.length = x.receiver.channels.length ∧ ∀ b ∈ buffers, count ≤ b.length) := by
      rwa [h.channels, List.length_map]
    obtain ⟨e, he⟩ := recv_misuse terminals count wait onePacket md x.surroundings hbad
    rw [RxSession.step, he]
    refine ⟨t, [], ⟨.error e, buffers, md⟩, h.misuse e buffers md, rfl, List.prefix_rfl, .done, .nil, ?_⟩
    rw [RxReturn.Cuts, if_neg ha]
    exact ⟨rfl, e, rfl⟩

/-- The place that a session with one channel has come to in the stream of its packets. -/
def RxSession.cursor (ps : List DataPacket) (x : RxSession S σ) : Cursor :=
  match (x.receiver.channels[0]?).bind (·.held) with
  | some h => ⟨ps.length - 1, h.offset⟩
  | none => ⟨ps.length, 0⟩

/-- The track of a session tells its place. -/
theorem Described.place {terminals : Nat → Terminal σ} {x : RxSession S σ} {as : List (RxAction S σ)} {t : Track}
    (h : Described (recordedLedger terminals) (x.runRecorded terminals as) [t]) :
    packetsIn format (x.framesTaken terminals as 0) = packetsIn format t.taken ∧
      (x.run terminals as).cursor (packetsIn format (x.framesTaken terminals as 0)) = t.cursor format := by
  obtain ⟨-, htaken, hheld⟩ := h.plain (i := 0) rfl
  rw [htaken, RxSession.cursor, hheld]
  exact ⟨rfl, rfl⟩

end Sessions

/-- Over one link, whatever comes on it beside data packets: what calls for samples have
returned and reported agrees with the packets up to the place that they have come to. The
next call takes slices from there on, and its metadata is exact for them, unless its buffers
do not fit and it does nothing. -/
theorem single_channel_metadata_exact {S σ : Type} [HostSample S] (terminals : Nat → Terminal σ) {frameSize : Nat}
    {format : WireFormat} {rate : Float} {packetSamples : Nat} {r : Receiver}
    (hr : Receiver.new [frameSize] format rate packetSamples = .ok r) (s : σ) (as : List (RxAction S σ))
    (hask : ∀ a ∈ as, a.Asks) (buffers : List (List S)) {count : Nat} (hcount : 0 < count) (wait : Nat)
    (onePacket : Bool) (md : RxMetadata) :
    let x : RxSession S σ := ⟨r, s, []⟩
    let call : RxAction S σ := .recv buffers count wait onePacket md
    let packets (as : List (RxAction S σ)) := packetsIn format (x.framesTaken terminals as 0)
    let place (as : List (RxAction S σ)) := (x.run terminals as).cursor (packets as)
    Tallies (packets as) (place as) (x.run terminals as).returns ∧
      ∃ cut y, (x.run terminals (as ++ [call])).returns = (x.run terminals as).returns ++ [y] ∧
        packets as <+: packets (as ++ [call]) ∧
        Reads (packets (as ++ [call])) (place as) cut (place (as ++ [call])) ∧ cut.IsChain Slice.Follows ∧
        y.Cuts rate buffers count md cut := by
  intro x call packets place
  have hstart : Reaches terminals format rate (fun rs _ ts => TalliedSingle format rs ts) x.record :=
    reaches_new hr s ⟨{}, rfl, Track.sound_blank, ⟨rfl, rfl, rfl⟩⟩
  obtain ⟨hfmt, hrate, ts, hd, t, rfl, hs, htally⟩ := hstart.run tallied_calls as hask
  rw [← RxSession.runRecorded] at hfmt hrate hd htally
  have hret : ∀ bs, (x.runRecorded terminals bs).returns = (x.run terminals bs).returns := fun bs => by
    rw [← RxSession.erase_runRecorded]
    rfl
  obtain ⟨t', cut, y, hd', hy, hpre, hread, hchain, hcuts⟩ := hd.recv_cuts buffers hcount wait onePacket md
  have hstep := RxSession.runRecorded_concat terminals x as call
  rw [RxAction.recorded] at hstep
  rw [← hstep] at hd' hy
  rw [hfmt] at hpre hread
  rw [hrate] at hcuts
  rw [hret, hret] at hy
  rw [hret] at htally
  have hp : packets as = packetsIn format t.taken := hd.place.1
  have hp' : packets (as ++ [call]) = packetsIn format t'.taken := hd'.place.1
  have hc : place as = t.cursor format := hd.place.2
  have hc' : place (as ++ [call]) = t'.cursor format := hd'.place.2
  rw [hp, hp', hc, hc']
  exact ⟨htally, cut, y, hy, hpre, hread, hchain, hcuts⟩

/-- Behind a frame that makes no sense is a burst of two packets. Two samples were taken, and
the next call takes the third one, where a vector ends, and the last packet. -/
theorem single_channel_metadata_exact_last :
    let frames := [[1, 2, 3],
      DataPacket.bytes .sc16 { startOfBurst := true, endOfVector := true, sequence := 7 } [⟨1, 2⟩, ⟨3, 4⟩, ⟨5, 6⟩],
      DataPacket.bytes .sc16 { endOfBurst := true, sequence := 8 } [⟨7, 8⟩, ⟨9, 10⟩]]
    let r : Receiver := { channels := [{}], format := .sc16, rate := 1, packetSamples := 8 }
    let x : RxSession (Iq Int16) (List (List Bytes)) := ⟨r, [frames], []⟩
    let buffer : List (Iq Int16) := List.replicate 5 ⟨0, 0⟩
    let as := [RxAction.recv [buffer] 5 0 false {}, RxAction.recv [buffer] 2 0 false {}]
    let md : RxMetadata := { eov := some ⟨4, [], Nat.zero_le 4⟩ }
    let call := RxAction.recv [buffer] 5 0 false md
    let packets (as : List (RxAction (Iq Int16) (List (List Bytes)))) :=
      packetsIn .sc16 (x.framesTaken Terminal.scripted as 0)
    let place (as : List (RxAction (Iq Int16) (List (List Bytes)))) := (x.run Terminal.scripted as).cursor (packets as)
    let told := (x.run Terminal.scripted (as ++ [call])).returns.map (·.metadata)
    Receiver.new [64] .sc16 1 8 = .ok r ∧ (∀ a ∈ as, a.Asks) ∧
      (∃ cut y, (x.run Terminal.scripted (as ++ [call])).returns = (x.run Terminal.scripted as).returns ++ [y] ∧
        packets as <+: packets (as ++ [call]) ∧
        Reads (packets (as ++ [call])) (place as) cut (place (as ++ [call])) ∧ cut.IsChain Slice.Follows ∧
        y.Cuts 1 [buffer] 5 md cut) ∧
      told.map (fun md => (md.startOfBurst, md.fragmentOffset, md.moreFragments, md.endOfBurst)) =
        [(false, 0, false, false), (true, 0, true, false), (false, 2, false, true)] ∧
      told.map (·.eovCount) = [0, 0, 1] := by
  intro frames r x buffer as md call packets place told
  have hr : Receiver.new [64] .sc16 1 8 = .ok r := rfl
  have hask : ∀ a ∈ as, a.Asks := by simp [as, RxAction.Asks]
  exact ⟨hr, hask,
    (single_channel_metadata_exact Terminal.scripted hr [frames] as hask [buffer] (by decide) 0 false md).2,
    by decide +kernel, by decide +kernel⟩

end RadioStream
