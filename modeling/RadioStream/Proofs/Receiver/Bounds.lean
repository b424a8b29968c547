import RadioStream.Proofs.Receiver.Checked
import RadioStream.Proofs.Receiver.Session
/-!
# A receiver stays within bounds

Frames may hold any bytes, also lengths that are not true. What keeps a receiver within
bounds is one invariant of the packets it holds, `Held.InBounds`: the samples counted fill
the payload, the payload lies in the frame, and there are samples left unless there never
were any.

For each operation there is one lemma: on channels in bounds the checked operation does
what the plain one does, and leaves the channels in bounds. `recv_in_bounds` puts them
together for all states that a receiver comes to.
-/

namespace RadioStream

/-- The samples of a packet fill its payload, which lies within the frame, and some are left
unless there were none at all. -/
structure Held.InBounds (format : WireFormat) (h : Held) : Prop where
  whole : h.header.payloadLength.toNat = h.samples * format.sampleBytes
  fits : Header.size + h.header.payloadLength.toNat ≤ h.frame.payload.length
  offset : h.offset < h.samples ∨ h.offset = 0 ∧ h.samples = 0

/-- All packets held are in bounds. -/
def InBounds (format : WireFormat) (cs : List RxChannel) : Prop := ∀ c ∈ cs, ∀ h ∈ c.held, h.InBounds format

theorem Held.InBounds.offset_le {format : WireFormat} {h : Held} (hb : h.InBounds format) : h.offset ≤ h.samples := by
  rcases hb.offset with hlt | ⟨hz, -⟩
  · exact Nat.le_of_lt hlt
  · rw [hz]
    exact Nat.zero_le _

theorem InBounds.cons {format : WireFormat} {c : RxChannel} {cs : List RxChannel} (hc : ∀ h ∈ c.held, h.InBounds format)
    (hcs : InBounds format cs) : InBounds format (c :: cs) :=
  List.forall_mem_cons.2 ⟨hc, hcs⟩

namespace Checked

variable {σ S : Type} {format : WireFormat}

/-! ## Slices and differences -/

theorem slice_eq {α : Type} {xs : List α} {first past : Nat} (hf : first ≤ past) (hp : past ≤ xs.length) :
    slice xs first past = some ((xs.drop first).take (past - first)) := by
  rw [slice, if_pos ⟨hf, hp⟩, List.drop_take]

theorem minus_eq {m n : Nat} (h : n ≤ m) : minus m n = some (m - n) := if_pos h

/-! ## Frames of any bytes -/

theorem decode_eq (frame : Bytes) : decode frame = some (Header.decode frame) := by
  rcases frame with _ | ⟨kind, _ | ⟨flags, rest⟩⟩
  · rfl
  · rfl
  · unfold decode Header.decode
    dsimp only
    by_cases hs : rest.length < 14
    · rw [if_pos (by simp only [List.length_cons, Header.size]; omega), if_pos hs]
      rfl
    · have hl : (kind :: flags :: rest).length = rest.length + 2 := rfl
      rw [if_neg (by rw [hl, Header.size]; omega), if_neg hs]
      simp only [List.getElem?_cons_zero, List.getElem?_cons_succ, Option.bind_eq_bind, Option.bind_some]
      cases PacketKind.ofWire? kind with
      | none => rfl
      | some k =>
        dsimp only
        rw [slice_eq (by decide) (by rw [hl]; omega), slice_eq (by decide) (by rw [hl]; omega),
          slice_eq (by decide) (by rw [hl]; omega)]
        simp only [Option.bind_some, List.drop_succ_cons, List.drop_zero, Nat.reduceSub, hl]
        generalize ofBigEndian ((rest.drop 2).take 4) = n
        have hbody : (rest.drop 14).length = rest.length - 14 := List.length_drop
        have hsize : Header.size = 16 := rfl
        by_cases hn : rest.length - 14 < n
        · rw [if_pos (by omega), if_pos (by rwa [hbody]), hbody, hsize,
            show rest.length - 14 + 16 = rest.length + 2 by omega]
        · rw [if_neg (by omega), if_neg (by rwa [hbody]), slice_eq (Nat.le_add_right _ _) (by rw [hl]; omega),
            Nat.add_sub_cancel_left]
          rfl

theorem decodeStatus_eq (payload : Bytes) : decodeStatus payload = some (RxCode.decode payload) := by
  unfold decodeStatus RxCode.decode
  by_cases hl : payload.length ≠ 4
  · rw [if_pos hl, if_pos hl]
  · rw [if_neg hl, if_neg hl]
    rw [not_not] at hl
    rw [slice_eq (by decide) (by omega), List.drop_zero, Nat.sub_zero, ← hl, List.take_length]
    dsimp only [Option.bind_eq_bind, Option.bind_some]
    cases RxCode.ofWire? (UInt32.ofNat (ofBigEndian payload)) <;> rfl

theorem incoming_eq (format : WireFormat) (frame : Bytes) :
    incoming format frame = some (Incoming.ofFrame format frame) := by
  unfold incoming Incoming.ofFrame
  rw [decode_eq]
  dsimp only [Option.bind_eq_bind, Option.bind_some]
  rcases Header.decode frame with e | ⟨h, payload⟩
  · rfl
  · dsimp only
    cases h.kind with
    | data =>
      dsimp only
      split <;> rfl
    | status =>
      dsimp only
      rw [decodeStatus_eq, Option.bind_some]
      cases RxCode.decode payload <;> rfl
    | command => rfl
    | event => rfl

/-- What was read of a frame lies within it. -/
theorem fits_of_decode {frame payload : Bytes} {h : Header} (hd : Header.decode frame = .ok (h, payload)) :
    Header.size + h.payloadLength.toNat ≤ frame.length := by
  obtain ⟨hp, hl⟩ := Header.payload_of_decode hd
  have hsize : Header.size ≤ frame.length := by
    rcases frame with _ | ⟨kind, _ | ⟨flags, rest⟩⟩
    · cases hd
    · cases hd
    · rw [Header.decode] at hd
      split at hd
      · cases hd
      · simp only [List.length_cons, Header.size]
        omega
  rw [hp, List.length_take, List.length_drop] at hl
  omega

/-- Whatever a frame says of itself, the packet that is held of it is in bounds. -/
theorem inBounds_of_data {f : Frame} {h : Header} {n : Nat} (hf : Incoming.ofFrame format f.payload = .data h n) :
    Held.InBounds format { frame := f, header := h, samples := n } := by
  unfold Incoming.ofFrame at hf
  split at hf
  · cases hf
  · next g payload hd =>
    split at hf
    · split at hf
      · next hw =>
        cases hf
        refine ⟨?_, fits_of_decode hd, ?_⟩
        · exact (Nat.div_mul_cancel (Nat.dvd_of_mod_eq_zero hw)).symm
        · rcases Nat.eq_zero_or_pos (h.payloadLength.toNat / format.sampleBytes) with hz | hp
          · exact .inr ⟨rfl, hz⟩
          · exact .inl hp
      · cases hf
    · split at hf <;> cases hf
    · cases hf

/-! ## The packets held -/

section HeldPackets

variable {h : Held}

theorem remaining_eq (hb : h.InBounds format) : remaining h = some h.remaining := minus_eq hb.offset_le

theorem unread_eq (hb : h.InBounds format) :
    unread format h = some (h.payload.drop (h.offset * format.sampleBytes)) := by
  have hl : h.payload.length = h.header.payloadLength.toNat := by
    have := hb.fits
    rw [Held.payload, List.length_take, List.length_drop]
    omega
  have hp : payload h = some h.payload := by
    rw [payload, slice_eq (Nat.le_add_right _ _) hb.fits, Nat.add_sub_cancel_left]
    rfl
  have ho : h.offset * format.sampleBytes ≤ h.payload.length := by
    rw [hl, hb.whole]
    exact Nat.mul_le_mul_right _ hb.offset_le
  rw [unread, hp, Option.bind_eq_bind, Option.bind_some, slice_eq ho (Nat.le_refl _), List.take_of_length_le (by simp)]

/-- As many samples are unread as are counted. -/
theorem length_unread (hb : h.InBounds format) : (h.unread format).length = h.remaining := by
  have := hb.fits
  have hw := hb.whole
  rw [Held.unread, WireFormat.length_decode, List.length_drop, Held.payload, List.length_take, List.length_drop,
    Nat.min_eq_left (by omega), hw, ← Nat.sub_mul, Nat.mul_div_cancel _ format.sampleBytes_pos, Held.remaining]

/-- A packet of which some samples are left is in bounds further on. -/
theorem inBounds_advance (hb : h.InBounds format) {n : Nat}
    (hz : ({ h with offset := h.offset + n } : Held).remaining ≠ 0) :
    Held.InBounds format { h with offset := h.offset + n } where
  whole := hb.whole
  fits := hb.fits
  offset := .inl (by rw [Held.remaining] at hz; dsimp only at hz ⊢; omega)

end HeldPackets

/-! ## The channels -/

section Channels

variable (terminals : Nat → Terminal σ) {links : Nat} (wait : Nat) {s : σ}

theorem fetch_spec {i : Nat} {cs : List RxChannel} {c : RxChannel} (hi : i < links) (hc : cs[i]? = some c)
    (hb : ∀ h ∈ c.held, h.InBounds format) :
    ∃ k c' s', RxChannel.fetch (terminals i) format wait c s = (k, c', s') ∧
      fetch terminals links format wait i cs s = some (k, cs.set i c', s') ∧ ∀ h ∈ c'.held, h.InBounds format := by
  have hset : cs.set i c = cs := by
    obtain ⟨hlt, rfl⟩ := List.getElem?_eq_some_iff.1 hc
    exact List.set_getElem_self hlt
  unfold fetch RxChannel.fetch
  rw [hc]
  dsimp only [Option.bind_eq_bind, Option.bind_some]
  by_cases hh : c.held.isSome = true
  · rw [if_pos hh, if_pos hh]
    exact ⟨_, c, s, rfl, by rw [hset], hb⟩
  · rw [if_neg hh, if_neg hh, if_neg (Nat.not_le.2 hi)]
    rcases (terminals i).receive wait s with ⟨_ | f, s₁⟩
    · exact ⟨_, c, s₁, rfl, by rw [hset], hb⟩
    · dsimp only
      rw [incoming_eq, Option.bind_some]
      cases hf : Incoming.ofFrame format f.payload with
      | malformed => exact ⟨_, c, _, rfl, by rw [hset], hb⟩
      | status code tick => exact ⟨_, c, _, rfl, by rw [hset], hb⟩
      | data g n =>
        refine ⟨_, _, s₁, rfl, rfl, fun h hm => ?_⟩
        cases hm
        exact inBounds_of_data hf

theorem fetchAll_spec (before : List RxChannel) {cs : List RxChannel} (hl : before.length + cs.length ≤ links)
    (hb : InBounds format cs) :
    ∃ k cs' s', RxChannel.fetchAll terminals format wait before.length cs s = (k, cs', s') ∧
      fetchAll terminals links format wait before.length cs.length (before ++ cs) s = some (k, before ++ cs', s') ∧
      InBounds format cs' ∧ cs'.length = cs.length := by
  induction cs generalizing before s with
  | nil => exact ⟨none, [], s, rfl, rfl, hb, rfl⟩
  | cons c cs ih =>
    obtain ⟨hc, hcs⟩ := List.forall_mem_cons.1 hb
    rw [List.length_cons] at hl
    obtain ⟨k, c', s₁, hf, hcf, hc'⟩ := fetch_spec terminals wait (s := s) (show before.length < links by omega)
      (show (before ++ c :: cs)[before.length]? = some c by simp) hc
    have hset : (before ++ c :: cs).set before.length c' = before ++ c' :: cs := by simp
    rw [hset] at hcf
    unfold RxChannel.fetchAll
    rw [List.length_cons, fetchAll, hf, hcf]
    dsimp only [Option.bind_eq_bind, Option.bind_some]
    cases k with
    | some k => exact ⟨_, _, s₁, rfl, rfl, .cons hc' hcs, rfl⟩
    | none =>
      -- the channel goes to those before, as the next one has a larger number
      obtain ⟨k, cs', s₂, hr, hcr, hb', hl'⟩ := ih (s := s₁) (before ++ [c'])
        (by rw [List.length_append, List.length_singleton]; omega) hcs
      rw [List.length_append, List.length_singleton] at hr hcr
      rw [← List.append_cons, ← List.append_cons] at hcr
      dsimp only
      rw [hr]
      exact ⟨k, c' :: cs', s₂, rfl, hcr, .cons hc' hb', congrArg (· + 1) hl'⟩

theorem dropBehind_eq (newest : Nat) (before : List (Option Nat)) (cs : List RxChannel) :
    dropBehind terminals newest (before ++ cs.map fun c => c.held.bind Held.tick?) before.length cs s =
      some (RxChannel.dropWhere terminals (Held.behind newest) before.length cs s) := by
  induction cs generalizing before s with
  | nil => rfl
  | cons c cs ih =>
    have hletGo : (if c.held.bind Held.tick? = some newest then (c, s)
        else RxChannel.letGo (terminals before.length) (fun _ => true) c s) =
        RxChannel.letGo (terminals before.length) (Held.behind newest) c s := by
      unfold RxChannel.letGo
      cases hh : c.held with
      | none => simp
      | some h => by_cases ht : h.tick? = some newest <;> simp [Held.behind, ht]
    have hrest := fun s => ih (s := s) (before ++ [c.held.bind Held.tick?])
    simp only [List.length_append, List.length_singleton, ← List.append_cons] at hrest
    unfold RxChannel.dropWhere
    rw [List.map_cons, dropBehind, List.getElem?_append_right (Nat.le_refl _), Nat.sub_self]
    dsimp only [List.getElem?_cons_zero, Option.bind_eq_bind, Option.bind_some]
    rw [hletGo, hrest]
    rfl

theorem letGo_inBounds {t : Terminal σ} (test : Held → Bool) {c : RxChannel} (hc : ∀ h ∈ c.held, h.InBounds format) :
    ∀ h ∈ (RxChannel.letGo t test c s).1.held, h.InBounds format := by
  unfold RxChannel.letGo
  split
  · split
    · simp
    · exact hc
  · exact hc

theorem dropWhere_inBounds (test : Held → Bool) (i : Nat) {cs : List RxChannel} (hb : InBounds format cs) :
    InBounds format (RxChannel.dropWhere terminals test i cs s).1 ∧
      (RxChannel.dropWhere terminals test i cs s).1.length = cs.length := by
  induction cs generalizing i s with
  | nil => exact ⟨hb, rfl⟩
  | cons c cs ih =>
    obtain ⟨hc, hcs⟩ := List.forall_mem_cons.1 hb
    obtain ⟨hcs', hl⟩ := ih (s := (RxChannel.letGo (terminals i) test c s).2) (i + 1) hcs
    exact ⟨.cons (letGo_inBounds test hc) hcs', congrArg (· + 1) hl⟩

theorem alignRounds_spec (rounds : Nat) {cs : List RxChannel} (hl : cs.length ≤ links) (hb : InBounds format cs) :
    ∃ k cs' s', Receiver.alignRounds terminals format wait rounds cs s = (k, cs', s') ∧
      alignRounds terminals links format wait rounds cs s = some (k, cs', s') ∧
      InBounds format cs' ∧ cs'.length = cs.length := by
  induction rounds generalizing cs s with
  | zero =>
    obtain ⟨hb', hl'⟩ := dropWhere_inBounds terminals (s := s) (fun _ => true) 0 hb
    exact ⟨_, _, _, rfl, rfl, hb', hl'⟩
  | succ rounds ih =>
    obtain ⟨k, cs₁, s₁, hf, hcf, hb₁, hl₁⟩ := fetchAll_spec terminals wait (s := s) []
      (show [].length + cs.length ≤ links by simpa using hl) hb
    rw [List.length_nil] at hf hcf
    rw [List.nil_append, List.nil_append] at hcf
    unfold Receiver.alignRounds alignRounds
    rw [hf, hcf]
    dsimp only [Option.bind_eq_bind, Option.bind_some]
    cases k with
    | some k => exact ⟨_, _, _, rfl, rfl, hb₁, hl₁⟩
    | none =>
      dsimp only
      cases Receiver.newestTick cs₁ with
      | none => exact ⟨_, _, _, rfl, rfl, hb₁, hl₁⟩
      | some newest =>
        dsimp only
        by_cases hany : (cs₁.any fun c => c.held.any (Held.behind newest)) = true
        · have hd := dropBehind_eq terminals (s := s₁) newest [] cs₁
          obtain ⟨hb₂, hl₂⟩ := dropWhere_inBounds terminals (s := s₁) (Held.behind newest) 0 hb₁
          rw [List.nil_append, List.length_nil] at hd
          rw [if_pos hany, if_pos hany, hd]
          dsimp only [Option.bind_some]
          obtain ⟨k, cs', s', hr, hcr, hb', hl'⟩ :=
            ih (s := (RxChannel.dropWhere terminals (Held.behind newest) 0 cs₁ s₁).2) (by rwa [hl₂, hl₁]) hb₂
          exact ⟨k, cs', s', hr, hcr, hb', by rw [hl', hl₂, hl₁]⟩
        · rw [if_neg hany, if_neg hany]
          exact ⟨_, _, _, rfl, rfl, hb₁, hl₁⟩

/-- Samples that fill a part of a buffer are put over it. -/
theorem splice_part {α : Type} {b part xs : List α} {position : Nat} (hl : xs.length = part.length) :
    splice b position (splice part 0 xs) = splice b position xs := by
  have hx : splice part 0 xs = xs := by
    rw [splice, List.take_zero, List.nil_append, Nat.zero_add, hl, List.drop_length, List.append_nil]
  rw [hx]

variable [HostSample S]

theorem advance_spec {t : Terminal σ} {position n : Nat} {c : RxChannel} {b : List S}
    (hb : ∀ h ∈ c.held, h.InBounds format) (hn : ∀ h ∈ c.held, n ≤ h.remaining) (hp : position + n ≤ b.length) :
    ∃ c' b' s', RxChannel.advance t format position n c b s = (c', b', s') ∧
      advance t format position n c b s = some (c', b', s') ∧ (∀ h ∈ c'.held, h.InBounds format) ∧
      b'.length = b.length := by
  unfold advance RxChannel.advance
  cases hh : c.held with
  | none => exact ⟨c, b, s, rfl, rfl, hb, rfl⟩
  | some h =>
    have hh' := hb h hh
    have hn' := hn h hh
    have hxs : (((h.unread format).take n).map (HostSample.ofRaw (σ := S))).length = n := by
      rw [List.length_map, List.length_take, length_unread hh', Nat.min_eq_left hn']
    have hpart : ((b.drop position).take (position + n - position)).length = n := by
      rw [List.length_take, List.length_drop]
      omega
    have hunpack : (format.unpack (h.payload.drop (h.offset * format.sampleBytes))
        ((b.drop position).take (position + n - position))).2 =
        splice ((b.drop position).take (position + n - position)) 0
          (((h.unread format).take n).map (HostSample.ofRaw (σ := S))) := by
      rw [WireFormat.unpack, hpart]
      rfl
    -- the offset moves on by no more than what is left
    have hrem : remaining { h with offset := h.offset + n } =
        some ({ h with offset := h.offset + n } : Held).remaining := by
      refine minus_eq ?_
      have := hh'.offset_le
      rw [Held.remaining] at hn'
      dsimp only
      omega
    dsimp only
    rw [unread_eq hh', slice_eq (Nat.le_add_right _ _) hp]
    dsimp only [Option.bind_eq_bind, Option.bind_some]
    rw [hunpack, splice_part (by rw [hxs, hpart]), hrem, Option.bind_some]
    have hlen : (splice b position (((h.unread format).take n).map (HostSample.ofRaw (σ := S)))).length = b.length :=
      length_splice (by rwa [hxs])
    by_cases hz : ({ h with offset := h.offset + n } : Held).remaining = 0
    · rw [if_pos hz, if_pos hz]
      exact ⟨_, _, _, rfl, rfl, by simp, hlen⟩
    · rw [if_neg hz, if_neg hz]
      refine ⟨_, _, _, rfl, rfl, fun g hg => ?_, hlen⟩
      cases hg
      exact inBounds_advance hh' hz

theorem advanceAll_spec {position n : Nat} (i : Nat) {cs : List RxChannel} {bs : List (List S)}
    (hb : InBounds format cs)
    (hn : ∀ c ∈ cs, ∀ h ∈ c.held, n ≤ h.remaining) (hp : ∀ b ∈ bs, position + n ≤ b.length) :
    ∃ cs' bs' s', RxChannel.advanceAll terminals format position n i cs bs s = (cs', bs', s') ∧
      advanceAll terminals format position n i cs bs s = some (cs', bs', s') ∧ InBounds format cs' ∧
      cs'.length = cs.length ∧ bs'.map List.length = bs.map List.length := by
  induction cs generalizing bs i s with
  | nil => exact ⟨[], bs, s, rfl, by rw [advanceAll]; simp, hb, rfl, rfl⟩
  | cons c cs ih =>
    cases bs with
    | nil => exact ⟨c :: cs, [], s, rfl, by rw [advanceAll]; simp, hb, rfl, rfl⟩
    | cons b bs =>
      obtain ⟨hc, hcs⟩ := List.forall_mem_cons.1 hb
      obtain ⟨hnc, hncs⟩ := List.forall_mem_cons.1 hn
      obtain ⟨hpb, hpbs⟩ := List.forall_mem_cons.1 hp
      obtain ⟨c', b', s₁, ha, hca, hc', hl⟩ := advance_spec (t := terminals i) (s := s) hc hnc hpb
      obtain ⟨cs', bs', s₂, hr, hcr, hcs', hlc, hlb⟩ := ih (s := s₁) (i + 1) hcs hncs hpbs
      unfold RxChannel.advanceAll advanceAll
      rw [ha, hca]
      dsimp only [Option.bind_eq_bind, Option.bind_some]
      rw [hr, hcr]
      exact ⟨_, _, _, rfl, rfl, .cons hc' hcs', congrArg (· + 1) hlc, by rw [List.map_cons, List.map_cons, hl, hlb]⟩

end Channels

/-! ## The receiver -/

/-- A receiver with a channel for each link, all in bounds. -/
structure Fit (links : Nat) (r : Receiver) : Prop where
  links : r.channels.length = links
  nonempty : r.channels ≠ []
  held : InBounds r.format r.channels

section Receivers

variable (terminals : Nat → Terminal σ) {links : Nat} (wait : Nat) {r : Receiver} {s : σ}

theorem Fit.first (h : Fit links r) : ∃ c, r.channels[0]? = some c ∧ r.leading? = c.held := by
  obtain ⟨c, cs, hc⟩ := List.exists_cons_of_ne_nil h.nonempty
  exact ⟨c, by rw [hc]; rfl, by rw [Receiver.leading?, hc]; rfl⟩

/-- Other channels for the same links. -/
theorem Fit.with_channels (h : Fit links r) {cs : List RxChannel} (hb : InBounds r.format cs)
    (hl : cs.length = r.channels.length) (st : StreamState) : Fit links { r with channels := cs, state := st } where
  links := hl.trans h.links
  nonempty := List.ne_nil_of_length_pos (by rw [hl]; exact List.length_pos_of_ne_nil h.nonempty)
  held := hb

theorem align_spec (h : Fit links r) :
    ∃ k r' s', r.align terminals wait s = (k, r', s') ∧ align terminals links wait r s = some (k, r', s') ∧
      Fit links r' := by
  obtain ⟨k, cs', s', hr, hcr, hb, hl⟩ := alignRounds_spec terminals wait (s := s)
    (r.channels.length * Receiver.roundsPerChannel) (Nat.le_of_eq h.links) h.held
  unfold align Receiver.align
  dsimp only [Option.bind_eq_bind]
  rw [hr, hcr]
  exact ⟨_, _, _, rfl, rfl, h.with_channels hb hl _⟩

theorem mapM_remaining {hs : List Held} (hb : ∀ h ∈ hs, h.InBounds format) :
    hs.mapM remaining = some (hs.map Held.remaining) :=
  mapM_eq_some_map fun h hh => remaining_eq (hb h hh)

/-- No packet has fewer samples left than all have in common. -/
theorem commonRemaining_le {cs : List RxChannel} {c : RxChannel} (hc : c ∈ cs) {g : Held} (hg : g ∈ c.held) :
    Receiver.commonRemaining cs ≤ g.remaining := by
  have hmem : g.remaining ∈ (cs.filterMap (·.held)).map Held.remaining :=
    List.mem_map_of_mem (List.mem_filterMap.2 ⟨c, hc, hg⟩)
  rw [Receiver.commonRemaining]
  cases hm : ((cs.filterMap (·.held)).map Held.remaining).min? with
  | none =>
    rw [List.min?_eq_none_iff.1 hm] at hmem
    cases hmem
  | some n => exact (List.min?_eq_some_iff.1 hm).2 _ hmem

variable [HostSample S]

theorem consume_spec {position most : Nat} {buffers : List (List S)} (h : Fit links r)
    (hroom : ∀ b ∈ buffers, position + most ≤ b.length) :
    ∃ p r' buffers' s', r.consume terminals position most buffers s = (p, r', buffers', s') ∧
      consume terminals position most r buffers s = some (p, r', buffers', s') ∧ p.count ≤ most ∧ Fit links r' ∧
      buffers'.map List.length = buffers.map List.length := by
  have hheld : ∀ g ∈ r.channels.filterMap (·.held), g.InBounds r.format := by
    intro g hg
    obtain ⟨c, hc, hcg⟩ := List.mem_filterMap.1 hg
    exact h.held c hc g hcg
  have hroom' : ∀ b ∈ buffers, position + min (Receiver.commonRemaining r.channels) most ≤ b.length := by
    intro b hb
    exact le_trans (Nat.add_le_add_left (Nat.min_le_right _ _) _) (hroom b hb)
  obtain ⟨c, hc, hlead⟩ := h.first
  unfold consume Receiver.consume
  rw [mapM_remaining hheld, hc, hlead]
  dsimp only [Option.bind_eq_bind, Option.bind_some]
  cases c.held with
  | none => exact ⟨_, r, buffers, s, rfl, rfl, Nat.zero_le _, h, rfl⟩
  | some lead =>
    obtain ⟨cs', bs', s', ha, hca, hb, hl, hlb⟩ := advanceAll_spec terminals (s := s) 0 h.held
      (fun c hc g hg => le_trans (Nat.min_le_left _ most) (commonRemaining_le hc hg)) hroom'
    rw [Receiver.commonRemaining] at ha hca ⊢
    dsimp only
    rw [ha, hca]
    exact ⟨_, _, _, _, rfl, rfl, Nat.min_le_right _ _, h.with_channels hb hl r.state, hlb⟩

theorem gather_spec {count : Nat} (fuel : Nat) (last : Portion) {total : Nat} {buffers : List (List S)}
    (md : RxMetadata) (h : Fit links r) (ht : total ≤ count) (hroom : ∀ b ∈ buffers, count ≤ b.length) :
    ∃ p total' r' buffers' md' s',
      Receiver.gather terminals wait count fuel last total r buffers md s = (p, total', r', buffers', md', s') ∧
      gather terminals links wait count fuel last total r buffers md s = some (p, total', r', buffers', md', s') ∧
      Fit links r' := by
  induction fuel generalizing last total r buffers md s with
  | zero => exact ⟨_, _, r, _, _, _, rfl, rfl, h⟩
  | succ fuel ih =>
    unfold gather Receiver.gather
    by_cases hgo : (last.exhausted && !last.header.endOfBurst && decide (total < count)) = true
    · obtain ⟨k, r₁, s₁, ha, hca, hfit⟩ := align_spec terminals wait (s := s) h
      rw [if_pos hgo, if_pos hgo, ha, hca]
      dsimp only [Option.bind_eq_bind, Option.bind_some]
      cases k with
      | some k =>
        refine ⟨_, _, _, _, _, _, rfl, rfl, ?_⟩
        split
        · exact hfit
        · exact ⟨hfit.links, hfit.nonempty, hfit.held⟩
      | none =>
        obtain ⟨c, hc, hlead⟩ := hfit.first
        dsimp only
        rw [hc, hlead, Option.bind_some]
        by_cases hs : c.held.any Held.startsBurst = true
        · rw [if_pos hs, if_pos hs]
          exact ⟨_, _, r₁, _, _, _, rfl, rfl, hfit⟩
        · have hroom₁ : ∀ b ∈ buffers, total + (count - total) ≤ b.length := by
            intro b hb
            rw [Nat.add_sub_cancel' ht]
            exact hroom b hb
          obtain ⟨p, r₂, bs, s₂, hc₂, hcc, hcount, hfit₂, hlens⟩ := consume_spec terminals (s := s₁) hfit hroom₁
          rw [if_neg hs, if_neg hs, minus_eq ht, hc₂, Option.bind_some, hcc]
          exact ih _ _ hfit₂ (show total + p.count ≤ count by omega) (room_of_lengths hlens hroom)
    · rw [if_neg hgo, if_neg hgo]
      exact ⟨_, _, r, _, _, _, rfl, rfl, h⟩

theorem poll_spec (md : RxMetadata) (h : Fit links r) :
    ∃ md' r' s', r.poll terminals wait md s = (md', r', s') ∧ poll terminals links wait r md s = some (md', r', s') ∧
      Fit links r' := by
  obtain ⟨k, r₁, s₁, ha, hca, hfit⟩ := align_spec terminals wait (s := s) h
  unfold poll Receiver.poll
  rw [ha, hca]
  dsimp only [Option.bind_eq_bind, Option.bind_some]
  cases k with
  | some k => exact ⟨_, r₁, _, rfl, rfl, hfit⟩
  | none =>
    obtain ⟨c, hc, hlead⟩ := hfit.first
    dsimp only
    rw [hc, hlead, Option.bind_some]
    cases hh : c.held with
    | none => exact ⟨_, r₁, _, rfl, rfl, hfit⟩
    | some lead =>
      dsimp only
      rw [remaining_eq (hfit.held c (List.mem_of_getElem? hc) lead hh), Option.bind_some]
      by_cases hz : lead.remaining = 0
      · rw [if_pos hz, if_pos hz]
        obtain ⟨hb, hl⟩ := dropWhere_inBounds terminals (s := s₁) (fun _ => true) 0 hfit.held
        exact ⟨_, _, _, rfl, rfl, hfit.with_channels hb hl _⟩
      · rw [if_neg hz, if_neg hz]
        exact ⟨_, r₁, _, rfl, rfl, hfit⟩

theorem deliver_spec {buffers : List (List S)} {count : Nat} (onePacket : Bool) (md : RxMetadata) (h : Fit links r)
    (hroom : ∀ b ∈ buffers, count ≤ b.length) :
    ∃ y, r.deliver terminals buffers count wait onePacket md s = y ∧
      deliver terminals links r buffers count wait onePacket md s = some y ∧ Fit links y.receiver := by
  obtain ⟨k, r₁, s₁, ha, hca, hfit⟩ := align_spec terminals wait (s := s) h
  unfold deliver Receiver.deliver
  rw [ha, hca]
  dsimp only [Option.bind_eq_bind, Option.bind_some]
  cases k with
  | some k => exact ⟨_, rfl, rfl, hfit⟩
  | none =>
    obtain ⟨p, r₂, bs, s₂, hc, hcc, hcount, hfit₂, hlens⟩ := consume_spec terminals (s := s₁) hfit
      (show ∀ b ∈ buffers, 0 + count ≤ b.length by simpa using hroom)
    dsimp only
    rw [hc, hcc]
    dsimp only [Option.bind_some]
    obtain ⟨q, total, r₃, bs', md', s₃, hg, hcg, hfit₃⟩ := gather_spec terminals wait (s := s₂)
      (if onePacket then 0 else r₂.patience terminals count s₂) p
      (Receiver.noteVector p p.count (r₂.describe p.header p.offset md)) hfit₂ hcount (room_of_lengths hlens hroom)
    rw [hg, hcg]
    exact ⟨_, rfl, rfl, ⟨hfit₃.links, hfit₃.nonempty, hfit₃.held⟩⟩

theorem recv_spec (buffers : List (List S)) (count : Nat) (onePacket : Bool) (md : RxMetadata) (h : Fit links r) :
    ∃ y, r.recv terminals buffers count wait onePacket md s = y ∧
      recv terminals links r buffers count wait onePacket md s = some y ∧ Fit links y.receiver := by
  unfold recv Receiver.recv
  rw [h.links]
  by_cases hl : buffers.length ≠ links
  · rw [if_pos hl, if_pos hl]
    exact ⟨_, rfl, rfl, h⟩
  · rw [if_neg hl, if_neg hl]
    cases hf : buffers.find? (·.length < count) with
    | some short => exact ⟨_, rfl, rfl, h⟩
    | none =>
      have hroom := find?_short.1 hf
      dsimp only
      cases r.deferred with
      | some k => exact ⟨_, rfl, rfl, ⟨h.links, h.nonempty, h.held⟩⟩
      | none =>
        dsimp only
        by_cases hz : count = 0
        · obtain ⟨md', r₁, s₁, hp, hcp, hfit⟩ := poll_spec terminals wait (s := s) md.reset h
          rw [if_pos hz, if_pos hz, hp, hcp]
          exact ⟨_, rfl, rfl, hfit⟩
        · rw [if_neg hz, if_neg hz]
          exact deliver_spec terminals wait onePacket md.reset h hroom

end Receivers

/-! ## Over time -/

section Sessions

variable [HostSample S] (terminals : Nat → Terminal σ) {links : Nat} {x : RxSession S σ}

theorem Fit.step (h : Fit links x.receiver) (a : RxAction S σ) : Fit links (x.step terminals a).receiver := by
  cases a with
  | recv buffers count wait onePacket md =>
    obtain ⟨y, hy, -, hfit⟩ := recv_spec terminals wait (s := x.surroundings) buffers count onePacket md h
    rw [RxSession.step, hy]
    exact hfit
  | issue c =>
    -- a command changes nothing but the state
    obtain ⟨res, st, s', he, -⟩ := issueFrom_keeps terminals (f := fun _ => ()) (fun _ _ _ => rfl) (fun _ _ _ => rfl) c
      x.receiver.channels.length 0 x.receiver x.surroundings
    rw [RxSession.step, Receiver.issue, he]
    exact ⟨h.links, h.nonempty, h.held⟩
  | elapse f => exact h

theorem Fit.run (h : Fit links x.receiver) (as : List (RxAction S σ)) : Fit links (x.run terminals as).receiver := by
  induction as generalizing x with
  | nil => exact h
  | cons a as ih => exact ih (h.step terminals a)

theorem fit_of_new {sizes : List Nat} {rate : Float} {packetSamples : Nat} {r : Receiver}
    (hr : Receiver.new sizes format rate packetSamples = .ok r) : Fit sizes.length r := by
  obtain ⟨hne, rfl⟩ := Receiver.eq_of_new hr
  refine ⟨List.length_map _, by simpa using hne, fun c hc h hh => ?_⟩
  obtain ⟨_, -, rfl⟩ := List.mem_map.1 hc
  cases hh

end Sessions

end Checked

/-- Whatever comes in on the links of a receiver and whatever calls are made, the packets
that it holds are in bounds, and no slice, index or difference of a call is out of range:
the call that checks them all gives what the call gives. -/
theorem recv_in_bounds {S σ : Type} [HostSample S] (terminals : Nat → Terminal σ) {sizes : List Nat}
    {format : WireFormat} {rate : Float} {packetSamples : Nat} {r : Receiver}
    (hr : Receiver.new sizes format rate packetSamples = .ok r) (s : σ) (as : List (RxAction S σ)) :
    let x : RxSession S σ := ⟨r, s, []⟩
    let y := x.run terminals as
    InBounds y.receiver.format y.receiver.channels ∧
      ∀ (buffers : List (List S)) (count wait : Nat) (onePacket : Bool) (md : RxMetadata),
        Checked.recv terminals sizes.length y.receiver buffers count wait onePacket md y.surroundings =
          some (y.receiver.recv terminals buffers count wait onePacket md y.surroundings) := by
  intro x y
  have hfit : Checked.Fit sizes.length y.receiver := (Checked.fit_of_new hr).run terminals (x := x) as
  refine ⟨hfit.held, fun buffers count wait onePacket md => ?_⟩
  obtain ⟨z, hz, hcz, -⟩ := Checked.recv_spec terminals wait (s := y.surroundings) buffers count onePacket md hfit
  rw [hz, hcz]

/-- Among a frame that ends within its header, one whose payload would lie past its end and
one with half a sample, a packet of two samples is handed out one by one. -/
theorem recv_in_bounds_hostile :
    let cut : Bytes := [1, 0, 0]
    let long : Bytes := ({ payloadLength := 4294967295 } : Header).bytes ++ [0, 0, 0, 0]
    let half : Bytes := ({ payloadLength := 6 } : Header).bytes ++ [0, 0, 0, 0, 0, 0]
    let links := [[cut, long, half, DataPacket.bytes .sc16 {} [⟨1, 2⟩, ⟨3, 4⟩]]]
    let r : Receiver := { channels := [{}], format := .sc16, rate := 1, packetSamples := 8 }
    let buffers : List (List (Iq Int16)) := [[⟨0, 0⟩]]
    let calls : List (RxAction (Iq Int16) (List (List Bytes))) := List.replicate 4 (.recv buffers 1 0 false {})
    Receiver.new [64] .sc16 1 8 = .ok r ∧ ∃ y, RxSession.run Terminal.scripted ⟨r, links, []⟩ calls = y ∧
      y.returns.map (·.metadata.code) = [.badPacket, .badPacket, .badPacket, .none] ∧
      y.receiver.channels.map (fun c => c.held.map (·.offset)) = [some 1] ∧
      InBounds y.receiver.format y.receiver.channels ∧
      Checked.recv Terminal.scripted 1 y.receiver buffers 1 0 false {} y.surroundings =
        some (y.receiver.recv Terminal.scripted buffers 1 0 false {} y.surroundings) := by
  intro cut long half links r buffers calls
  have hr : Receiver.new [64] .sc16 1 8 = .ok r := rfl
  have h := recv_in_bounds Terminal.scripted hr links calls
  exact ⟨hr, _, rfl, by decide +kernel, by decide +kernel, h.1, h.2 buffers 1 0 false {}⟩

end RadioStream
