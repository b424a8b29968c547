import RadioStream.Proofs.Receiver.Lockstep
/-!
# Calls for all that was sent

When the packets of a transmission wait on every channel, a call for exactly their
samples takes all of them: no packet is missing, none begins another burst, and the
patience of the receiver lasts (`Gathered.complete`). `Call.complete` says what the
call then reports.
-/

namespace RadioStream

/-! ## Ends of vectors -/

/-- Adds positions as long as there is room. -/
def EovPositions.pushAll (xs : List Nat) (e : EovPositions) : EovPositions := xs.foldl push e

theorem EovPositions.positions_push (e : EovPositions) (x : Nat) :
    (e.push x).limit = e.limit ∧ (e.push x).positions = (e.positions ++ [x]).take e.limit := by
  have hb := e.bounded
  unfold push push?
  split
  · next h =>
    refine ⟨rfl, (List.take_of_length_le ?_).symm⟩
    show (e.positions ++ [x]).length ≤ e.limit
    rw [List.length_append, List.length_singleton]
    exact h
  · next h =>
    have he : e.positions.length = e.limit := by omega
    exact ⟨rfl, (List.take_left' he).symm⟩

/-- As many positions as there is room for are added. -/
theorem EovPositions.positions_pushAll (xs : List Nat) (e : EovPositions) :
    (e.pushAll xs).positions = (e.positions ++ xs).take e.limit := by
  induction xs generalizing e with
  | nil =>
    rw [List.append_nil, List.take_of_length_le e.bounded]
    rfl
  | cons x xs ih =>
    obtain ⟨hl, hp⟩ := e.positions_push x
    have := ih (e.push x)
    rw [hl, hp] at this
    have htake : ∀ ys : List Nat, (ys.take e.limit ++ xs).take e.limit = (ys ++ xs).take e.limit := by
      intro ys
      rw [List.take_append, List.take_append, List.take_take, Nat.min_self, List.length_take]
      congr 2
      omega
    rw [pushAll, List.foldl_cons, ← pushAll, this, htake, ← List.append_cons]

theorem EovPositions.map_pushAll (xs ys : List Nat) (e : Option EovPositions) :
    (e.map (pushAll xs)).map (pushAll ys) = e.map (pushAll (xs ++ ys)) := by
  rw [Option.map_map]
  congr 1
  funext e
  exact List.foldl_append.symm

/-- The positions after which vectors end in packets that follow `total` samples. -/
def vectorEnds : Nat → List Outline → List Nat
  | _, [] => []
  | total, out :: rest =>
    (if out.header.endOfVector then [total + out.count] else []) ++ vectorEnds (total + out.count) rest

/-- A packet that is used up leaves a note where a vector ends with it. -/
theorem noteVector_of_exhausted {p : Portion} (h : p.exhausted = true) (position : Nat) (md : RxMetadata) :
    Receiver.noteVector p position md =
      { md with eov := md.eov.map (EovPositions.pushAll (if p.header.endOfVector then [position] else [])) } := by
  unfold Receiver.noteVector
  rw [h, Bool.true_and]
  cases p.header.endOfVector with
  | true => rfl
  | false =>
    have hmap : md.eov.map (EovPositions.pushAll []) = md.eov := Option.map_id_apply
    simp only [Bool.false_eq_true, if_false, hmap]

/-! ## The next packet -/

section Next

variable {format : WireFormat} {plan : List Outline} {m : Nat} {ts : List Track}

/-- The channels have finished `m` packets of a plan and hold nothing. -/
def Between (format : WireFormat) (plan : List Outline) (m : Nat) (ts : List Track) : Prop :=
  ts ≠ [] ∧ ∀ t ∈ ts, InStep format plan m 0 t ∧ t.channel.held = none

theorem Between.inStep (h : Between format plan m ts) : ∀ t ∈ ts, InStep format plan m 0 t := fun t ht => (h.2 t ht).1

/-- Steps meet no condition as long as the plan goes on. -/
theorem Between.done (hn : Numbered plan) (h : Between format plan m ts) {ts' : List Track} {c : Condition}
    (hp : Path format ts [c] ts') : m = plan.length :=
  (((inStep_steps hn).path hp (fun _ _ => trivial) h.inStep).2 c List.mem_cons_self).2

/-- Once all packets are held they are the next one of the plan. -/
theorem Between.next (hn : Numbered plan) (h : Between format plan m ts) {ts' : List Track}
    (hp : Path format ts [] ts') (ha : Aligned ts') :
    ts' ≠ [] ∧ (∀ t ∈ ts', InStep format plan m 0 t) ∧
      ∃ out, plan[m]? = some out ∧ plan.drop m = out :: plan.drop (m + 1) := by
  have hne := hp.ne_nil h.1
  have hi := ((inStep_steps hn).path hp (fun _ _ => trivial) h.inStep).1
  obtain ⟨out, hout⟩ := exists_next ha.held hne hi
  obtain ⟨hlt, hget⟩ := List.getElem?_eq_some_iff.1 hout
  exact ⟨hne, hi, out, hout, by rw [List.drop_eq_getElem_cons hlt, hget]⟩

/-- With all packets held, a portion that may be large enough is the next packet. -/
theorem Portion.Of.next {ts : List Track} {p : Portion} {most : Nat} (ho : p.Of format most ts) (ha : AllHeld ts)
    (hne : ts ≠ []) (hi : ∀ t ∈ ts, InStep format plan m 0 t) {out : Outline} (hout : plan[m]? = some out)
    (hle : out.count ≤ most) :
    p.header = out.header ∧ p.offset = 0 ∧ p.count = out.count ∧ p.exhausted = true ∧
      Between format plan (m + 1) (ts.map (Track.advance format p.count)) := by
  have hheld : ∀ t ∈ ts, ∀ g ∈ t.channel.held, g.header = out.header ∧ g.remaining = out.count ∧ g.offset = 0 := by
    intro t ht g hg
    obtain ⟨out', hout', hheader, hsamples, hoff, -⟩ := (hi t ht).of_held hg
    rw [hout] at hout'
    cases hout'
    exact ⟨hheader, by rw [Held.remaining, hsamples, hoff, Nat.sub_zero], hoff⟩
  -- a portion is as large as the packet: no larger, as it is held, and no smaller, as there is room
  have hcount : p.count = out.count := by
    obtain ⟨t, ht⟩ := List.exists_mem_of_ne_nil ts hne
    obtain ⟨g, hg⟩ := Option.isSome_iff_exists.1 (ha t ht)
    have hroom := ho.room t ht g hg
    have hmost := ho.count_le
    rw [(hheld t ht g hg).2.1] at hroom
    rcases Nat.lt_or_ge p.count most with hlt | hge
    · obtain ⟨u, hu, h, hh, hr⟩ := ho.least hlt
      rw [← hr, (hheld u hu h hh).2.1]
    · omega
  obtain ⟨lead, hl, hheader, hoff⟩ := ho.lead
  obtain ⟨t, ht, hg⟩ := exists_leading hl
  obtain ⟨h₁, -, h₃⟩ := hheld t ht lead hg
  have hadv := inStep_advance ha ho.room hout hi
  rw [if_pos (by omega), if_pos (by omega)] at hadv
  have hnone : ∀ t ∈ ts.map (Track.advance format p.count), t.channel.held = none := by
    intro t' ht'
    obtain ⟨t, ht, rfl⟩ := List.mem_map.1 ht'
    obtain ⟨g, hg⟩ := Option.isSome_iff_exists.1 (ha t ht)
    have hr := (hheld t ht g hg).2.1
    unfold Track.advance
    rw [hg]
    dsimp only
    have hz : ({ g with offset := g.offset + p.count } : Held).remaining = 0 := by
      show g.samples - (g.offset + p.count) = 0
      rw [Held.remaining] at hr
      omega
    rw [if_pos hz]
  refine ⟨hheader.trans h₁, hoff.trans h₃, hcount, ?_, by simpa using hne, fun t ht => ⟨hadv t ht, hnone t ht⟩⟩
  rw [ho.exhausted, List.all_eq_true]
  intro t ht
  rw [hnone t ht]
  rfl

end Next

/-! ## The packets of a transmission -/

/-- Packets with samples that go on with a burst, of which the last may end it. -/
def Continues : List Outline → Prop
  | [] => True
  | out :: rest =>
    out.header.startOfBurst = false ∧ 0 < out.count ∧ (rest ≠ [] → out.header.endOfBurst = false) ∧
      Continues rest

/-- The header of the last packet, after one that came before. -/
def lastHeader (h : Header) (rest : List Outline) : Header := rest.foldl (fun _ out => out.header) h

section Completion

variable {format : WireFormat} {plan : List Outline} {count : Nat}

/-- A call that has finished all packets but some that follow takes these too, and
notes where their vectors end. -/
theorem Gathered.complete (hn : Numbered plan) {fuel : Nat} {g g' : Gathering} {k : Option Condition}
    (h : Gathered format count fuel g k g') {m : Nat} {rest : List Outline} (hb : Between format plan m g.tracks)
    (hrest : plan.drop m = rest) (hsum : g.total + (rest.map (·.count)).sum = count) (hfuel : rest.length ≤ fuel)
    (hex : g.last.exhausted = true) (hlast : rest ≠ [] → g.last.header.endOfBurst = false) (hc : Continues rest) :
    k = none ∧ g'.total = count ∧ g'.last.exhausted = true ∧ g'.last.header = lastHeader g.last.header rest ∧
      g'.metadata = { g.metadata with eov := g.metadata.eov.map (EovPositions.pushAll (vectorEnds g.total rest)) } := by
  induction h generalizing m rest with
  | @stop fuel g hstop =>
    cases rest with
    | nil =>
      have hmap : g.metadata.eov.map (EovPositions.pushAll []) = g.metadata.eov := Option.map_id_apply
      exact ⟨rfl, by simpa using hsum, hex, rfl, by rw [vectorEnds, hmap]⟩
    | cons out rest =>
      -- there is fuel, and there are samples to come
      have hcount := hc.2.1
      rw [List.map_cons, List.sum_cons] at hsum
      rw [List.length_cons] at hfuel
      have hw : g.Wants count := by
        rw [Gathering.Wants, hex, hlast (by simp), decide_eq_true (by omega)]
        rfl
      rcases hstop with hz | hstop
      · omega
      · exact absurd hw hstop
  | @refused fuel g c ts hw hp =>
    -- a condition is met only after the plan, when nothing is wanted
    have hnil : rest = [] := by rw [← hrest, hb.done hn hp, List.drop_length]
    subst hnil
    have hlt := hw.lt
    simp only [List.map_nil, List.sum_nil] at hsum
    omega
  | @burst fuel g ts hw hp ha hs =>
    -- the packets that follow start no burst
    obtain ⟨hne, hi, out, hout, hdrop⟩ := hb.next hn hp ha
    obtain rfl := hdrop.symm.trans hrest
    obtain ⟨lead, hlead, hb⟩ := Option.any_eq_true _ _ |>.1 hs
    obtain ⟨t, ht, hg⟩ := exists_leading hlead
    obtain ⟨out', hout', hheader, -⟩ := (hi t ht).of_held hg
    rw [hout] at hout'
    cases hout'
    rw [Held.startsBurst, hheader, hc.1] at hb
    cases hb
  | @more fuel g g' ts p k hw hp ha hs ho _ ih =>
    obtain ⟨hne, hi, out, hout, hdrop⟩ := hb.next hn hp ha
    obtain rfl := hdrop.symm.trans hrest
    rw [List.map_cons, List.sum_cons] at hsum
    obtain ⟨hheader, -, hcount, hexh, hnext⟩ := ho.next ha.held hne hi hout (by omega)
    obtain ⟨hk, htotal, hex', hlast', hmd⟩ := ih (m := m + 1) hnext rfl
      (by show g.total + p.count + _ = count; omega) (by rw [List.length_cons] at hfuel; omega) hexh
      (fun hr => by show p.header.endOfBurst = false; rw [hheader]; exact hc.2.2.1 hr) hc.2.2.2
    refine ⟨hk, htotal, hex', ?_, ?_⟩
    · rw [hlast']
      show lastHeader p.header _ = _
      rw [hheader]
      rfl
    · rw [hmd, Gathering.add, noteVector_of_exhausted hexh, hheader, hcount]
      dsimp only
      rw [EovPositions.map_pushAll, vectorEnds]

/-- The first packet of a transmission has samples, and ends a burst only if it is the
last one. -/
structure Opens (first : Outline) (rest : List Outline) : Prop where
  count_pos : 0 < first.count
  last : rest ≠ [] → first.header.endOfBurst = false
  continues : Continues rest

/-- A call for all the samples of a transmission that waits on every channel returns
them, and reports what the first and the last packet say. -/
theorem Call.complete (hn : Numbered plan) {rate : Float} {onePacket : Bool} {md : RxMetadata} {ts ts' : List Track}
    {rep : RxReport} (hC : Call format rate count onePacket md none ts rep ts') {m : Nat} {first : Outline}
    {rest : List Outline} (hb : Between format plan m ts) (hplan : plan.drop m = first :: rest)
    (hsum : first.count + (rest.map (·.count)).sum = count) (hopens : Opens first rest)
    (hone : onePacket = true → rest = []) :
    rep.count = count ∧ rep.kept = none ∧ rep.metadata = { md.reset with
      hasTime := first.header.hasTime
      time := Held.timeAt first.header 0 rate
      startOfBurst := first.header.startOfBurst
      endOfBurst := (lastHeader first.header rest).endOfBurst
      eov := md.reset.eov.map (EovPositions.pushAll (vectorEnds 0 (first :: rest))) } := by
  have hlt : m < plan.length := by
    by_contra hge
    rw [List.drop_of_length_le (by omega)] at hplan
    cases hplan
  have hpos := hopens.count_pos
  cases hC with
  | polled hz => omega
  | @refused _ _ c _ hp =>
    have := hb.done hn hp
    omega
  | @delivered _ ts₁ p fuel k g _ hp ha ho hpat hG =>
    obtain ⟨hne, hi, out, hout, hdrop⟩ := hb.next hn hp ha
    obtain ⟨rfl, hrest⟩ := List.cons.inj (hdrop.symm.trans hplan)
    obtain ⟨hheader, hoff, hcount, hexh, hnext⟩ := ho.next ha.held hne hi hout (by omega)
    have hfuel : rest.length ≤ fuel := by
      cases onePacket with
      | true => rw [hone rfl]; exact Nat.zero_le _
      | false =>
        -- the frames that are not taken yet are those of the other packets
        obtain ⟨t, ht⟩ := List.exists_mem_of_ne_nil _ hnext.1
        obtain ⟨hst, hnone⟩ := hnext.2 t ht
        obtain ⟨fs, hsent, -, hc⟩ := hst.log
        have hpt := hpat rfl t ht fs hsent
        rw [(hst.of_not_held hnone).1, hc.length_eq] at hpt
        rw [← hrest, List.length_drop]
        omega
    obtain ⟨rfl, htotal, hex, hlast, hmd⟩ := hG.complete hn hnext hrest (by show p.count + _ = count; omega) hfuel hexh
      (fun hr => by show p.header.endOfBurst = false; rw [hheader]; exact hopens.last hr) hopens.continues
    refine ⟨htotal, rfl, ?_⟩
    dsimp only at hlast hmd ⊢
    rw [hmd, hex, hlast, hheader, Portion.opening, noteVector_of_exhausted hexh, hheader, hoff, hcount]
    dsimp only
    rw [EovPositions.map_pushAll, vectorEnds, Nat.zero_add]
    rw [Bool.not_true, Bool.true_and, beq_self_eq_true, Bool.and_true]
    rfl

end Completion

end RadioStream
