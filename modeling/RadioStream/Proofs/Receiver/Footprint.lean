import RadioStream.Proofs.Receiver.Bounds
import RadioStream.Proofs.Receiver.EndOfBurst
/-!
# What a receive call touches

A call writes to buffers that it does not read, and describes the samples in metadata of
which it reads only the room for positions. What it writes and describes is therefore
settled before it is known where to: the lemma of each operation names its result first and
lets the buffers and the metadata be any after that.

`Blocks` are what a call has written so far. A portion makes them longer by its own count,
on every channel, because a receiver that is aligned holds a packet on each, and no packet
has fewer samples left than all have in common. `recv_footprint` says it of all states that a
receiver comes to.
-/

namespace RadioStream

/-! ## Blocks of samples -/

/-- A block for each channel, all of the same number of samples. -/
structure Blocks (channels count : Nat) (ws : List (List (Iq Int16))) : Prop where
  channels : ws.length = channels
  count : ∀ w ∈ ws, w.length = count

theorem Blocks.empty (channels : Nat) : Blocks channels 0 (List.replicate channels []) where
  channels := List.length_replicate
  count w hw := by rw [List.eq_of_mem_replicate hw, List.length_nil]

theorem Blocks.cons {channels count : Nat} {w : List (Iq Int16)} {ws : List (List (Iq Int16))} (hw : w.length = count)
    (hws : Blocks channels count ws) : Blocks (channels + 1) count (w :: ws) where
  channels := congrArg (· + 1) hws.channels
  count := List.forall_mem_cons.2 ⟨hw, hws.count⟩

section Buffers

variable {S : Type} [HostSample S]

theorem fill_empty {channels : Nat} {buffers : List (List S)} (hl : buffers.length = channels) :
    fill buffers (List.replicate channels []) = buffers :=
  fill_nil (by rw [hl, List.length_replicate]) fun _ h => List.eq_of_mem_replicate h

/-- Blocks go over the first samples of the buffers. -/
theorem fill_eq {count : Nat} {ws : List (List (Iq Int16))} (hw : ∀ w ∈ ws, w.length = count)
    (buffers : List (List S)) :
    fill buffers ws = List.zipWith (fun b w => w.map HostSample.ofRaw ++ b.drop count) buffers ws := by
  induction ws generalizing buffers with
  | nil => simp [fill]
  | cons w ws ih =>
    obtain ⟨hw, hws⟩ := List.forall_mem_cons.1 hw
    cases buffers with
    | nil => simp [fill]
    | cons b bs =>
      have hb : splice b 0 (w.map (HostSample.ofRaw (σ := S))) = w.map HostSample.ofRaw ++ b.drop count := by
        rw [splice_start, List.length_map, hw]
      rw [List.zipWith_cons_cons, ← ih hws bs, ← hb]
      rfl

end Buffers

/-! ## Arguments of a call -/

/-- The metadata of a call before anything is known, with room for a number of positions if
the caller gave any. -/
def RxMetadata.blank (limit : Option Nat) : RxMetadata :=
  { eov := limit.map fun n => ⟨n, [], Nat.zero_le _⟩ }

theorem RxMetadata.reset_eq (md : RxMetadata) : md.reset = .blank (md.eov.map (·.limit)) := by
  rw [RxMetadata.blank, Option.map_map]
  rfl

/-- There is a buffer for each channel, with room for a number of samples. -/
def Receiver.Suits {S : Type} (r : Receiver) (count : Nat) (buffers : List (List S)) : Prop :=
  buffers.length = r.channels.length ∧ ∀ b ∈ buffers, count ≤ b.length

/-! ## Portions -/

section Portions

variable (S : Type) {σ : Type} [HostSample S] (terminals : Nat → Terminal σ) {format : WireFormat} {s : σ}

/-- A packet is handed out in the same way whatever the buffer is. -/
theorem advance_writes {t : Terminal σ} {n position : Nat} {c : RxChannel} {w : List (Iq Int16)} {h : Held}
    (hc : c.held = some h) (hb : h.InBounds format) (hn : n ≤ h.remaining) (hw : w.length = position) :
    ∃ (c' : RxChannel) (w' : List (Iq Int16)) (s' : σ), w'.length = position + n ∧ (∀ g ∈ c'.held, g.InBounds format) ∧
      ∀ b : List S,
        RxChannel.advance t format position n c (splice b 0 (w.map HostSample.ofRaw)) s =
          (c', splice b 0 (w'.map HostSample.ofRaw), s') := by
  have hl : (w ++ (h.unread format).take n).length = position + n := by
    rw [List.length_append, List.length_take, Checked.length_unread hb, Nat.min_eq_left hn, hw]
  have hsplice : ∀ b : List S,
      splice (splice b 0 (w.map HostSample.ofRaw)) position (((h.unread format).take n).map HostSample.ofRaw) =
        splice b 0 ((w ++ (h.unread format).take n).map HostSample.ofRaw) := by
    intro b
    rw [List.map_append, ← splice_splice, List.length_map, hw]
  unfold RxChannel.advance
  simp only [hc, hsplice]
  by_cases hz : ({ h with offset := h.offset + n } : Held).remaining = 0
  · simp only [if_pos hz]
    exact ⟨_, _, _, hl, by simp, fun b => rfl⟩
  · simp only [if_neg hz]
    refine ⟨_, _, _, hl, fun g hg => ?_, fun b => rfl⟩
    cases hg
    exact Checked.inBounds_advance hb hz

theorem advanceAll_writes {n position : Nat} (i : Nat) {cs : List RxChannel} {ws : List (List (Iq Int16))}
    (hb : InBounds format cs) (hh : ∀ c ∈ cs, c.held.isSome) (hn : ∀ c ∈ cs, ∀ h ∈ c.held, n ≤ h.remaining)
    (hw : Blocks cs.length position ws) :
    ∃ cs' ws' s', Blocks cs.length (position + n) ws' ∧ InBounds format cs' ∧ cs'.length = cs.length ∧
      ∀ buffers : List (List S), buffers.length = cs.length →
        RxChannel.advanceAll terminals format position n i cs (fill buffers ws) s = (cs', fill buffers ws', s') := by
  induction cs generalizing ws i s with
  | nil =>
    refine ⟨[], [], s, ⟨rfl, by simp⟩, hb, rfl, fun buffers hl => ?_⟩
    rw [List.eq_nil_of_length_eq_zero hl, List.eq_nil_of_length_eq_zero hw.channels]
    rfl
  | cons c cs ih =>
    obtain ⟨hbc, hbcs⟩ := List.forall_mem_cons.1 hb
    obtain ⟨hhc, hhcs⟩ := List.forall_mem_cons.1 hh
    obtain ⟨hnc, hncs⟩ := List.forall_mem_cons.1 hn
    obtain ⟨w, ws, rfl⟩ := List.exists_cons_of_length_eq_add_one hw.channels
    obtain ⟨hwc, hwcs⟩ := List.forall_mem_cons.1 hw.count
    obtain ⟨h, hc⟩ := Option.isSome_iff_exists.1 hhc
    obtain ⟨c', w', s₁, hw', hbc', ha⟩ := advance_writes S (t := terminals i) (s := s) hc (hbc h hc) (hnc h hc) hwc
    obtain ⟨cs', ws', s₂, hws', hbcs', hlen, hrest⟩ := ih (s := s₁) (i + 1) hbcs hhcs hncs
      ⟨Nat.succ.inj hw.channels, hwcs⟩
    refine ⟨c' :: cs', w' :: ws', s₂, hws'.cons hw', .cons hbc' hbcs', congrArg (· + 1) hlen, fun buffers hl => ?_⟩
    obtain ⟨b, bs, rfl⟩ := List.exists_cons_of_length_eq_add_one hl
    have hrest := hrest bs (Nat.succ.inj hl)
    unfold fill at hrest ⊢
    rw [List.zipWith_cons_cons, RxChannel.advanceAll, ha b]
    dsimp only
    rw [hrest, List.zipWith_cons_cons]

variable {links count : Nat} {r : Receiver}

/-- A portion is as long on every channel as it says. -/
theorem consume_writes {position : Nat} (most : Nat) {ws : List (List (Iq Int16))} (h : Checked.Fit links r)
    (hh : ∀ c ∈ r.channels, c.held.isSome) (hw : Blocks links position ws) :
    ∃ p r' ws' s', p.count ≤ most ∧ Checked.Fit links r' ∧ Blocks links (position + p.count) ws' ∧
      ∀ buffers : List (List S), buffers.length = links →
        r.consume terminals position most (fill buffers ws) s = (p, r', fill buffers ws', s') := by
  obtain ⟨c, hc, hlead⟩ := h.first
  obtain ⟨lead, hl⟩ := Option.isSome_iff_exists.1 (hh c (List.mem_of_getElem? hc))
  rw [← h.links] at hw
  obtain ⟨cs', ws', s', hws', hb, hlen, ha⟩ := advanceAll_writes S terminals (s := s) 0 h.held hh
    (fun c hc g hg => le_trans (Nat.min_le_left _ most) (Checked.commonRemaining_le hc hg)) hw
  rw [h.links] at hws' ha
  refine ⟨⟨lead.header, lead.offset, _, cs'.all (·.held.isNone)⟩, { r with channels := cs' }, ws', s',
    Nat.min_le_right _ _, h.with_channels hb hlen r.state, hws', fun buffers hb => ?_⟩
  unfold Receiver.consume
  rw [hlead, hl]
  dsimp only
  rw [ha buffers hb]

/-- Further packets make the blocks longer, up to the samples asked for. -/
theorem gather_writes (wait fuel : Nat) (last : Portion) {total : Nat} {ws : List (List (Iq Int16))}
    (h : Checked.Fit links r) (ht : total ≤ count) (hw : Blocks links total ws) :
    ∃ p total' r' ws' s', ∃ f : RxMetadata → RxMetadata, total' ≤ count ∧ Blocks links total' ws' ∧
      ∀ (buffers : List (List S)) (md : RxMetadata), buffers.length = links →
        Receiver.gather terminals wait count fuel last total r (fill buffers ws) md s =
          (p, total', r', fill buffers ws', f md, s') := by
  induction fuel generalizing last total ws r s with
  | zero => exact ⟨last, total, r, ws, s, id, ht, hw, fun buffers md hl => rfl⟩
  | succ fuel ih =>
    unfold Receiver.gather
    by_cases hgo : (last.exhausted && !last.header.endOfBurst && decide (total < count)) = true
    · obtain ⟨k, r₁, s₁, ha, -, hfit⟩ := Checked.align_spec terminals wait (s := s) h
      simp only [if_pos hgo, ha]
      cases k with
      | some k => exact ⟨last, total, _, ws, s₁, id, ht, hw, fun buffers md hl => rfl⟩
      | none =>
        dsimp only
        by_cases hs : r₁.leading?.any Held.startsBurst = true
        · simp only [if_pos hs]
          exact ⟨last, total, r₁, ws, s₁, id, ht, hw, fun buffers md hl => rfl⟩
        · simp only [if_neg hs]
          obtain ⟨p, r₂, ws₂, s₂, hp, hfit₂, hw₂, hc⟩ := consume_writes S terminals (s := s₁) (count - total)
            hfit ((align_channels h.nonempty ha).2 rfl) hw
          obtain ⟨q, total', r', ws', s', f, ht', hw', hg⟩ := ih (s := s₂) p hfit₂
            (show total + p.count ≤ count by omega) hw₂
          refine ⟨q, total', r', ws', s', f ∘ Receiver.noteVector p (total + p.count), ht', hw',
            fun buffers md hl => ?_⟩
          rw [hc buffers hl]
          exact hg buffers _ hl
    · simp only [if_neg hgo]
      exact ⟨last, total, r, ws, s, id, ht, hw, fun buffers md hl => rfl⟩

/-! ## Calls -/

/-- A call for no samples does the same whatever the metadata is. -/
theorem poll_writes (wait : Nat) (r : Receiver) (s : σ) :
    ∃ r' s', ∃ f : RxMetadata → RxMetadata, ∀ md, r.poll terminals wait md s = (f md, r', s') := by
  unfold Receiver.poll
  rcases r.align terminals wait s with ⟨_ | k, r₁, s₁⟩
  · dsimp only
    cases r₁.leading? with
    | none => exact ⟨r₁, s₁, id, fun md => rfl⟩
    | some lead =>
      dsimp only
      by_cases hz : lead.remaining = 0
      · simp only [if_pos hz]
        exact ⟨_, _, fun md => { r₁.describe lead.header lead.offset md with endOfBurst := lead.header.endOfBurst },
          fun md => rfl⟩
      · simp only [if_neg hz]
        exact ⟨r₁, s₁, fun md => { r₁.describe lead.header lead.offset md with moreFragments := true }, fun md => rfl⟩
  · exact ⟨r₁, s₁, fun md => if k.code = .timeout then md else k.report r₁.rate md, fun md => rfl⟩

theorem deliver_writes (count wait : Nat) (onePacket : Bool) (h : Checked.Fit links r) :
    ∃ n ws r' s', ∃ f : RxMetadata → RxMetadata, n ≤ count ∧ Blocks links n ws ∧
      ∀ (buffers : List (List S)) (md : RxMetadata), buffers.length = links →
        r.deliver terminals buffers count wait onePacket md s = ⟨.ok n, fill buffers ws, f md, r', s'⟩ := by
  obtain ⟨k, r₁, s₁, ha, -, hfit⟩ := Checked.align_spec terminals wait (s := s) h
  unfold Receiver.deliver
  rw [ha]
  cases k with
  | some k =>
    refine ⟨0, _, r₁, s₁, k.report r₁.rate, Nat.zero_le _, .empty links, fun buffers md hl => ?_⟩
    rw [fill_empty hl]
  | none =>
    obtain ⟨p, r₂, ws₂, s₂, hp, hfit₂, hw₂, hc⟩ := consume_writes S terminals (s := s₁) count
      hfit ((align_channels h.nonempty ha).2 rfl) (.empty links)
    rw [Nat.zero_add] at hw₂
    obtain ⟨q, n, r₃, ws, s₃, f, hn, hw, hg⟩ := gather_writes S terminals (s := s₂) wait
      (if onePacket then 0 else r₂.patience terminals count s₂) p hfit₂ hp hw₂
    refine ⟨n, ws, { r₃ with state := if q.exhausted && q.header.endOfBurst then .idle else r₃.state }, s₃, fun md =>
      { f (Receiver.noteVector p p.count (r₂.describe p.header p.offset md)) with
        moreFragments := !q.exhausted
        endOfBurst := q.exhausted && q.header.endOfBurst }, hn, hw, fun buffers md hl => ?_⟩
    have hc := hc buffers hl
    rw [fill_empty hl] at hc
    dsimp only
    rw [hc]
    dsimp only
    rw [hg buffers _ hl]

theorem recv_writes (count wait : Nat) (onePacket : Bool) (h : Checked.Fit links r) :
    ∃ n ws r' s', ∃ f : Option Nat → RxMetadata, n ≤ count ∧ Blocks links n ws ∧
      ∀ (buffers : List (List S)) (md : RxMetadata), r.Suits count buffers →
        r.recv terminals buffers count wait onePacket md s =
          ⟨.ok n, fill buffers ws, f (md.eov.map (·.limit)), r', s'⟩ := by
  -- a call that writes nothing writes empty blocks
  have hnone : ∀ {buffers : List (List S)}, r.Suits count buffers →
      fill buffers (List.replicate links []) = buffers :=
    fun hs => fill_empty (hs.1.trans h.links)
  cases hd : r.deferred with
  | some c =>
    refine ⟨0, _, { r with deferred := none }, s, fun limit => c.report r.rate (.blank limit), Nat.zero_le _,
      .empty links, fun buffers md hs => ?_⟩
    simp only [Receiver.recv, hs.1, ne_eq, not_true_eq_false, if_false, find?_short.2 hs.2, hd, hnone hs, md.reset_eq]
  | none =>
    by_cases hz : count = 0
    · obtain ⟨r', s', f, hp⟩ := poll_writes terminals wait r s
      refine ⟨0, _, r', s', fun limit => f (.blank limit), Nat.zero_le _, .empty links, fun buffers md hs => ?_⟩
      simp only [Receiver.recv, hs.1, ne_eq, not_true_eq_false, if_false, find?_short.2 hs.2, hd, if_pos hz, hp,
        hnone hs, md.reset_eq]
    · obtain ⟨n, ws, r', s', f, hn, hw, hdel⟩ := deliver_writes S terminals (s := s) count wait onePacket h
      refine ⟨n, ws, r', s', fun limit => f (.blank limit), hn, hw, fun buffers md hs => ?_⟩
      simp only [Receiver.recv, hs.1, ne_eq, not_true_eq_false, if_false, find?_short.2 hs.2, hd, if_neg hz,
        hdel buffers _ (hs.1.trans h.links), md.reset_eq]

end Portions

/-- Whatever has come in on the links of a receiver and whatever calls were made, a call is
an error just where there is not a buffer for each channel with room for the samples, and
then nothing changes. Else it gives a number of samples up to those asked for, and writes as
many over the start of each buffer and nothing behind them. The number, the samples, the
receiver and the surroundings afterwards are the same for all buffers and metadata, and the
metadata is so for the same room for positions. -/
theorem recv_footprint {S σ : Type} [HostSample S] (terminals : Nat → Terminal σ) {sizes : List Nat}
    {format : WireFormat} {rate : Float} {packetSamples : Nat} {r : Receiver}
    (hr : Receiver.new sizes format rate packetSamples = .ok r) (s : σ) (as : List (RxAction S σ)) :
    let x : RxSession S σ := ⟨r, s, []⟩
    let y := x.run terminals as
    ∀ (count wait : Nat) (onePacket : Bool), ∃ n ws r' s', ∃ f : Option Nat → RxMetadata,
      n ≤ count ∧ ws.length = y.receiver.channels.length ∧ (∀ w ∈ ws, w.length = n) ∧
        ∀ (buffers : List (List S)) (md : RxMetadata),
          let z := y.receiver.recv terminals buffers count wait onePacket md y.surroundings
          (y.receiver.Suits count buffers →
            z = ⟨.ok n, List.zipWith (fun b w => w ++ b.drop n) buffers ws, f (md.eov.map (·.limit)), r', s'⟩) ∧
          (¬y.receiver.Suits count buffers → ∃ e, z = ⟨.error e, buffers, md, y.receiver, y.surroundings⟩) := by
  intro x y count wait onePacket
  have hfit : Checked.Fit sizes.length y.receiver := (Checked.fit_of_new hr).run terminals (x := x) as
  obtain ⟨n, ws, r', s', f, hn, hw, hrecv⟩ := recv_writes S terminals (s := y.surroundings) count wait onePacket
    hfit
  refine ⟨n, ws.map (List.map HostSample.ofRaw), r', s', f, hn, ?_, ?_,
    fun buffers md => ⟨fun hs => ?_, fun hs => ?_⟩⟩
  · rw [List.length_map, hw.channels, hfit.links]
  · intro w hm
    obtain ⟨v, hv, rfl⟩ := List.mem_map.1 hm
    rw [List.length_map, hw.count v hv]
  · rw [hrecv buffers md hs, fill_eq hw.count, List.zipWith_map_right]
  · exact recv_misuse terminals count wait onePacket md y.surroundings hs

/-- Of two channels that each have one sample left of three and a further packet, a call for
three writes three over buffers of four, and one with a buffer of two writes nothing. -/
theorem recv_footprint_fragment :
    let packet (sequence : UInt16) (xs : List (Iq Int16)) := DataPacket.bytes .sc16 { sequence } xs
    let link := [packet 0 [⟨1, 1⟩, ⟨2, 2⟩, ⟨3, 3⟩], packet 1 [⟨4, 4⟩, ⟨5, 5⟩]]
    let r : Receiver := { channels := [{}, {}], format := .sc16, rate := 1, packetSamples := 8 }
    let first : RxAction (Iq Int16) (List (List Bytes)) := .recv [[⟨0, 0⟩, ⟨0, 0⟩], [⟨0, 0⟩, ⟨0, 0⟩]] 2 0 true {}
    let old : List (Iq Int16) := [⟨6, 6⟩, ⟨7, 7⟩, ⟨8, 8⟩, ⟨9, 9⟩]
    let given : List (Iq Int16) := [⟨3, 3⟩, ⟨4, 4⟩, ⟨5, 5⟩]
    Receiver.new [64, 64] .sc16 1 8 = .ok r ∧
      ∃ y, RxSession.run Terminal.scripted ⟨r, [link, link], []⟩ [first] = y ∧
        y.receiver.channels.map (fun c => c.held.map (·.offset)) = [some 2, some 2] ∧
        y.receiver.Suits 3 [old, old] ∧ ¬y.receiver.Suits 3 [old, old.take 2] ∧
        (y.receiver.recv Terminal.scripted [old, old] 3 0 false {} y.surroundings).buffers =
          [given ++ old.drop 3, given ++ old.drop 3] ∧
        ∃ n ws r' s', ∃ f : Option Nat → RxMetadata, n ≤ 3 ∧ ws.length = y.receiver.channels.length ∧
          (∀ w ∈ ws, w.length = n) ∧ ∀ (buffers : List (List (Iq Int16))) (md : RxMetadata),
            let z := y.receiver.recv Terminal.scripted buffers 3 0 false md y.surroundings
            (y.receiver.Suits 3 buffers →
              z = ⟨.ok n, List.zipWith (fun b w => w ++ b.drop n) buffers ws, f (md.eov.map (·.limit)), r', s'⟩) ∧
            (¬y.receiver.Suits 3 buffers → ∃ e, z = ⟨.error e, buffers, md, y.receiver, y.surroundings⟩) := by
  intro packet link r first old given
  have hr : Receiver.new [64, 64] .sc16 1 8 = .ok r := rfl
  refine ⟨hr, _, rfl, by decide +kernel, ⟨by decide +kernel, by decide +kernel⟩, fun h => ?_, by decide +kernel,
    recv_footprint Terminal.scripted hr [link, link] [first] 3 0 false⟩
  exact absurd (h.2 (old.take 2) (by decide)) (by decide)

end RadioStream
