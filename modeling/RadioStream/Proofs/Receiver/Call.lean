import Mathlib.Algebra.Order.BigOperators.Group.List
import Mathlib.Algebra.Order.Group.Nat
import RadioStream.Proofs.Receiver.Step
/-!
# Receive calls

A call aligns the channels, hands out a portion, and goes on with further packets
as long as it may. `Gathered` is that loop on tracks, one constructor for each way
it goes, and `Call` is a whole call.

`recv_spec` says that a call of the receiver is a `Call`, and that the buffers then
hold what the tracks have given. From here on nothing unfolds the receiver.
-/

namespace RadioStream

/-! ## Buffers -/

theorem splice_splice {α : Type} (b xs ys : List α) :
    splice (splice b 0 xs) xs.length ys = splice b 0 (xs ++ ys) := by
  simp [splice, List.drop_append]

/-- Buffers with a block of samples at the start of each. -/
def fill {S : Type} [HostSample S] (buffers : List (List S)) (blocks : List (List (Iq Int16))) : List (List S) :=
  List.zipWith (fun b xs => splice b 0 (xs.map HostSample.ofRaw)) buffers blocks

section Buffers

variable {S : Type} [HostSample S]

theorem length_fill {buffers : List (List S)} {blocks : List (List (Iq Int16))}
    (hl : buffers.length = blocks.length) : (fill buffers blocks).length = buffers.length := by
  rw [fill, List.length_zipWith, hl, Nat.min_self]

/-- Empty blocks leave the buffers as they are. -/
theorem fill_nil {buffers : List (List S)} {blocks : List (List (Iq Int16))}
    (hl : buffers.length = blocks.length) (he : ∀ xs ∈ blocks, xs = []) : fill buffers blocks = buffers := by
  induction buffers generalizing blocks with
  | nil => rfl
  | cons b bs ih =>
    obtain ⟨xs, blocks, rfl⟩ := List.exists_cons_of_length_eq_add_one hl.symm
    rw [fill, List.zipWith_cons_cons, ← fill, ih (Nat.succ.inj hl) fun ys hy => he ys (List.mem_cons_of_mem _ hy),
      he xs List.mem_cons_self]
    simp [splice]

/-- Writing a portion behind the blocks makes the blocks longer. -/
theorem fill_advance (format : WireFormat) (n : Nat) (buffers : List (List S)) {ts : List Track} {position : Nat}
    (hg : ∀ t ∈ ts, t.given.length = position) :
    List.zipWith (fun b t => splice b position (((t.unread format).take n).map HostSample.ofRaw))
        (fill buffers (ts.map (·.given))) ts =
      fill buffers ((ts.map (Track.advance format n)).map (·.given)) := by
  induction ts generalizing buffers with
  | nil => simp [fill]
  | cons t ts ih =>
    cases buffers with
    | nil => simp [fill]
    | cons b bs =>
      have hb := splice_splice b (t.given.map HostSample.ofRaw) (((t.unread format).take n).map HostSample.ofRaw)
      rw [List.length_map, hg t List.mem_cons_self] at hb
      simp only [fill, List.map_cons, List.zipWith_cons_cons, Track.given_advance, List.map_append] at ih ⊢
      rw [hb, ih bs fun u hu => hg u (List.mem_cons_of_mem _ hu)]

end Buffers

/-! ## The loop -/

/-- The tracks are sound, and each has given the same number of samples. -/
structure Ready (format : WireFormat) (total : Nat) (ts : List Track) : Prop where
  nonempty : ts ≠ []
  sound : ∀ t ∈ ts, t.Sound format
  given : ∀ t ∈ ts, t.given.length = total

/-- How far a call has come. -/
structure Gathering where
  tracks : List Track
  /-- The last portion. -/
  last : Portion
  total : Nat
  metadata : RxMetadata

namespace Gathering

/-- Whether the call may go on with further packets. -/
def Wants (count : Nat) (g : Gathering) : Prop :=
  (g.last.exhausted && !g.last.header.endOfBurst && g.total < count) = true

theorem Wants.lt {count : Nat} {g : Gathering} (h : g.Wants count) : g.total < count := by
  rw [Wants, Bool.and_eq_true, decide_eq_true_eq] at h
  exact h.2

/-- The call after a portion from some tracks. -/
def add (format : WireFormat) (p : Portion) (ts : List Track) (g : Gathering) : Gathering where
  tracks := ts.map (Track.advance format p.count)
  last := p
  total := g.total + p.count
  metadata := Receiver.noteVector p (g.total + p.count) g.metadata

end Gathering

/-- How a call goes on after a portion, with the condition that ends it. -/
inductive Gathered (format : WireFormat) (count : Nat) : Nat → Gathering → Option Condition → Gathering → Prop
  | stop {fuel : Nat} {g : Gathering} : (fuel = 0 ∨ ¬g.Wants count) → Gathered format count fuel g none g
  | refused {fuel : Nat} {g : Gathering} {c : Condition} {ts : List Track} : g.Wants count →
      Path format g.tracks [c] ts → Gathered format count (fuel + 1) g (some c) { g with tracks := ts }
  | burst {fuel : Nat} {g : Gathering} {ts : List Track} : g.Wants count → Path format g.tracks [] ts →
      Aligned ts → (leading ts).any Held.startsBurst = true →
      Gathered format count (fuel + 1) g none { g with tracks := ts }
  | more {fuel : Nat} {g g' : Gathering} {ts : List Track} {p : Portion} {k : Option Condition} :
      g.Wants count → Path format g.tracks [] ts → Aligned ts → (leading ts).any Held.startsBurst = false →
      p.Of format (count - g.total) ts → Gathered format count fuel (g.add format p ts) k g' →
      Gathered format count (fuel + 1) g k g'

/-- Whether a condition is kept for the next call to report. -/
def Condition.kept (c : Condition) : Bool := c.code != .timeout

/-- What a receive call reports, with the condition it keeps for the next one. -/
structure RxReport where
  count : Nat
  metadata : RxMetadata
  kept : Option Condition := none

/-- The metadata after the first portion of a call. -/
def Portion.opening (rate : Float) (md : RxMetadata) (p : Portion) : RxMetadata :=
  Receiver.noteVector p p.count
    { md.reset with
      hasTime := p.header.hasTime
      time := Held.timeAt p.header p.offset rate
      startOfBurst := p.header.startOfBurst && p.offset == 0
      fragmentOffset := p.offset }

/-- There is enough fuel to take all frames that were sent. -/
def Patient (fuel count : Nat) (ts : List Track) : Prop :=
  ∀ t ∈ ts, ∀ fs ∈ t.sent, count + fs.length ≤ fuel + t.taken.length

/-- What a call for no samples does. -/
inductive Polled (format : WireFormat) : List Track → List Track → Prop
  | seen {ts ts' : List Track} {k : Option Condition} : Path format ts k.toList ts' → Polled format ts ts'
  | emptied {ts ts' : List Track} {h : Held} : Path format ts [] ts' → Aligned ts' → leading ts' = some h →
      h.remaining = 0 → Polled format ts (ts'.map (Track.drop fun _ => true))

/-- What a call does that has room for the samples it asks for. Tracks come with
the condition that an earlier call kept. -/
inductive Call (format : WireFormat) (rate : Float) (count : Nat) (onePacket : Bool) (md : RxMetadata) :
    Option Condition → List Track → RxReport → List Track → Prop
  | told {ts : List Track} {c : Condition} :
      Call format rate count onePacket md (some c) ts ⟨0, c.report rate md.reset, none⟩ ts
  | polled {ts ts' : List Track} {md' : RxMetadata} : count = 0 → Polled format ts ts' →
      Call format rate count onePacket md none ts ⟨0, md', none⟩ ts'
  | refused {ts ts' : List Track} {c : Condition} : 0 < count → Path format ts [c] ts' →
      Call format rate count onePacket md none ts ⟨0, c.report rate md.reset, none⟩ ts'
  | delivered {ts ts₁ : List Track} {p : Portion} {fuel : Nat} {k : Option Condition} {g : Gathering} :
      0 < count → Path format ts [] ts₁ → Aligned ts₁ → p.Of format count ts₁ →
      (onePacket = false → Patient fuel count (ts₁.map (Track.advance format p.count))) →
      Gathered format count fuel
        ⟨ts₁.map (Track.advance format p.count), p, p.count, p.opening rate md⟩ k g →
      Call format rate count onePacket md none ts
        ⟨g.total, { g.metadata with
          moreFragments := !g.last.exhausted
          endOfBurst := g.last.exhausted && g.last.header.endOfBurst }, k.filter Condition.kept⟩ g.tracks

/-! ## The receiver makes calls -/

namespace Ready

variable {format : WireFormat} {total : Nat} {ts ts' : List Track}

/-- Aligning keeps what was given. -/
theorem path (h : Ready format total ts) {ks : List Condition} (hp : Path format ts ks ts') :
    Ready format total ts' where
  nonempty := hp.ne_nil h.nonempty
  sound := hp.sound h.sound
  given t ht := by
    have hm : t.given ∈ ts.map (·.given) := hp.given ▸ List.mem_map_of_mem ht
    obtain ⟨u, hu, he⟩ := List.mem_map.1 hm
    rw [← he]
    exact h.given u hu

theorem advance (h : Ready format total ts) (hh : AllHeld ts) {n : Nat} (hn : Room n ts) :
    Ready format (total + n) (ts.map (Track.advance format n)) where
  nonempty := by simpa using h.nonempty
  sound t ht := by
    obtain ⟨u, hu, rfl⟩ := List.mem_map.1 ht
    exact (h.sound u hu).advance fun h' hh' => hn u hu h' hh'
  given t ht := by
    obtain ⟨u, hu, rfl⟩ := List.mem_map.1 ht
    obtain ⟨h', hh'⟩ := Option.isSome_iff_exists.1 (hh u hu)
    rw [(h.sound u hu).length_given_advance hh' (hn u hu h' hh'), h.given u hu]

end Ready

theorem Polled.given {format : WireFormat} {ts ts' : List Track} (h : Polled format ts ts') :
    ts'.map (·.given) = ts.map (·.given) := by
  cases h with
  | seen hp => exact hp.given
  | emptied hp =>
    rw [← hp.given, List.map_map]
    exact List.map_congr_left fun t _ => Track.given_drop _ t

theorem leading_map (ts : List Track) {r : Receiver} (hr : r.channels = ts.map (·.channel)) :
    r.leading? = leading ts := by
  rw [Receiver.leading?, hr, leading, List.head?_map]
  cases ts.head? <;> rfl

section Calls

variable {σ : Type} {terminals : Nat → Terminal σ} (L : Ledger terminals) {S : Type} [HostSample S]

theorem gather_spec (wait count fuel : Nat) {r : Receiver} {g : Gathering} {buffers : List (List S)} {s : σ}
    (hr : r.channels = g.tracks.map (·.channel)) (hg : Ready r.format g.total g.tracks)
    (hl : buffers.length = g.tracks.length) (hT : L.Tells (g.tracks.map (·.account)) s) :
    ∃ k g' s', Receiver.gather terminals wait count fuel g.last g.total r (fill buffers (g.tracks.map (·.given)))
        g.metadata s =
        (g'.last, g'.total,
          { r with
            channels := g'.tracks.map (·.channel)
            state := k.elim r.state r.state.after
            deferred := (k.filter Condition.kept).or r.deferred },
          fill buffers (g'.tracks.map (·.given)), g'.metadata, s') ∧
      Gathered r.format count fuel g k g' ∧ L.Tells (g'.tracks.map (·.account)) s' := by
  induction fuel generalizing r g s with
  | zero => exact ⟨none, g, s, by rw [← hr]; rfl, .stop (.inl rfl), hT⟩
  | succ fuel ih =>
    unfold Receiver.gather
    by_cases h : (g.last.exhausted && !g.last.header.endOfBurst && g.total < count) = true
    · have hw : g.Wants count := h
      rw [if_pos h]
      obtain ⟨k, ts, s₁, ha, hp, hT₁, hal⟩ := align_spec L wait hr hg.nonempty hT
      have hg₁ := hg.path hp
      rw [ha]
      cases k with
      | some c =>
        -- the call ends with what it has, and keeps any condition but a timeout
        refine ⟨some c, { g with tracks := ts }, s₁, ?_, .refused hw hp, hT₁⟩
        dsimp only
        rw [← hp.given]
        by_cases hc : c.code = .timeout <;> simp [hc, Condition.kept, Option.filter]
      | none =>
        dsimp only
        rw [leading_map ts rfl]
        have ha := hal rfl
        -- a burst that starts now is left to the next call
        by_cases hb : (leading ts).any Held.startsBurst = true
        · rw [if_pos hb]
          exact ⟨none, { g with tracks := ts }, s₁, by rw [← hp.given]; rfl, .burst hw hp ha hb, hT₁⟩
        · rw [if_neg hb, ← hp.given]
          have hl₁ : (fill buffers (ts.map (·.given))).length = ts.length := by
            rw [length_fill (by rw [List.length_map, hp.length, hl]), hl, hp.length]
          obtain ⟨p, s₂, hc, ho, hT₂⟩ := consume_spec L g.total (count - g.total)
            (r := { r with channels := ts.map (·.channel), state := none.elim r.state r.state.after })
            rfl ha.held hg₁.nonempty hl₁ hT₁
          rw [hc, fill_advance r.format p.count buffers hg₁.given]
          have hg₂ : Ready r.format (g.total + p.count) (ts.map (Track.advance r.format p.count)) :=
            hg₁.advance ha.held ho.room
          obtain ⟨k, g', s', he, hG, hT'⟩ := ih
            (r := { r with channels := (g.add r.format p ts).tracks.map (·.channel), state := r.state })
            (g := g.add r.format p ts) rfl hg₂ (by rw [hl, Gathering.add, List.length_map, hp.length]) hT₂
          exact ⟨k, g', s', he, .more hw hp ha (by simpa using hb) ho hG, hT'⟩
    · rw [if_neg h]
      exact ⟨none, g, s, by rw [← hr]; rfl, .stop (.inr h), hT⟩

/-- The patience of a receiver is enough for all frames that were sent. -/
theorem patient_patience (count : Nat) {r : Receiver} {ts : List Track} {s : σ}
    (hr : r.channels.length = ts.length) (hT : L.Tells (ts.map (·.account)) s) :
    Patient (r.patience terminals count s) count ts := by
  intro t ht fs hfs
  obtain ⟨before, after, rfl⟩ := List.append_of_mem ht
  rw [List.map_append, List.map_cons] at hT
  have hb := L.backlog hT fs hfs
  rw [List.length_map] at hb
  -- the frames that wait for this channel are among those that wait for all
  have hm : (terminals before.length).backlog s ∈
      (List.range r.channels.length).map fun i => (terminals i).backlog s := by
    refine List.mem_map_of_mem (List.mem_range.2 ?_)
    rw [hr, List.length_append, List.length_cons]
    omega
  have hs := List.le_sum_of_mem hm
  have ha : t.account.taken = t.taken := rfl
  rw [ha] at hb
  rw [Receiver.patience, ← List.sum_eq_foldr]
  omega

theorem poll_spec (wait : Nat) (md : RxMetadata) {r : Receiver} {ts : List Track} {s : σ}
    (hr : r.channels = ts.map (·.channel)) (hne : ts ≠ []) (hT : L.Tells (ts.map (·.account)) s) :
    ∃ md' ts' st s', r.poll terminals wait md s =
        (md', { r with channels := ts'.map (·.channel), state := st }, s') ∧
      Polled r.format ts ts' ∧ L.Tells (ts'.map (·.account)) s' := by
  obtain ⟨k, ts₁, s₁, ha, hp, hT₁, hal⟩ := align_spec L wait hr hne hT
  unfold Receiver.poll
  rw [ha]
  cases k with
  | some c => exact ⟨_, ts₁, _, s₁, rfl, .seen hp, hT₁⟩
  | none =>
    dsimp only
    rw [leading_map ts₁ rfl]
    cases hlead : leading ts₁ with
    | none => exact ⟨_, ts₁, _, s₁, rfl, .seen hp, hT₁⟩
    | some lead =>
      dsimp only
      by_cases hz : lead.remaining = 0
      · obtain ⟨s₂, hd, hT₂⟩ := drop_first L (fun _ => true) hT₁
        rw [if_pos hz, hd]
        exact ⟨_, _, _, s₂, rfl, .emptied hp (hal rfl) hlead hz, hT₂⟩
      · rw [if_neg hz]
        exact ⟨_, ts₁, _, s₁, rfl, .seen hp, hT₁⟩

theorem deliver_spec {count : Nat} (wait : Nat) (onePacket : Bool) (md : RxMetadata) {r : Receiver}
    {ts : List Track} {buffers : List (List S)} {s : σ} (hn : 0 < count) (hd : r.deferred = none)
    (hr : r.channels = ts.map (·.channel)) (hne : ts ≠ []) (hs : ∀ t ∈ ts, t.Sound r.format)
    (hg : ∀ t ∈ ts, t.given = []) (hl : buffers.length = ts.length) (hT : L.Tells (ts.map (·.account)) s) :
    ∃ rep ts' st s', r.deliver terminals buffers count wait onePacket md.reset s =
        { outcome := .ok rep.count
          buffers := fill buffers (ts'.map (·.given))
          metadata := rep.metadata
          receiver := { r with channels := ts'.map (·.channel), state := st, deferred := rep.kept }
          surroundings := s' } ∧
      Call r.format r.rate count onePacket md none ts rep ts' ∧ L.Tells (ts'.map (·.account)) s' := by
  have hfill : fill buffers (ts.map (·.given)) = buffers :=
    fill_nil (by rw [List.length_map, hl]) (by simpa using hg)
  obtain ⟨k, ts₁, s₁, ha, hp, hT₁, hal⟩ := align_spec L wait hr hne hT
  unfold Receiver.deliver
  rw [ha]
  cases k with
  | some c =>
    refine ⟨⟨0, c.report r.rate md.reset, none⟩, ts₁, r.state.after c, s₁, ?_, .refused hn hp, hT₁⟩
    rw [hp.given, hfill, ← hd]
    rfl
  | none =>
    have ha := hal rfl
    have hg₁ : Ready r.format 0 ts₁ := Ready.path ⟨hne, hs, fun t ht => by rw [hg t ht]; rfl⟩ hp
    have hl₁ : buffers.length = ts₁.length := by rw [hl, hp.length]
    obtain ⟨p, s₂, hc, ho, hT₂⟩ := consume_spec L 0 count
      (r := { r with channels := ts₁.map (·.channel), state := none.elim r.state r.state.after })
      rfl ha.held hg₁.nonempty hl₁ hT₁
    have hg₂ := hg₁.advance ha.held ho.room
    rw [Nat.zero_add] at hg₂
    have hf := fill_advance r.format p.count buffers hg₁.given
    rw [hp.given, hfill] at hf
    dsimp only
    rw [hc, hf]
    -- the fuel is counted after the first portion, in the state that it leaves
    let r₂ : Receiver := { r with channels := (ts₁.map (Track.advance r.format p.count)).map (·.channel) }
    have hP : Patient (r₂.patience terminals count s₂) count (ts₁.map (Track.advance r.format p.count)) :=
      patient_patience L count (List.length_map _) hT₂
    obtain ⟨k, g, s', he, hG, hT'⟩ := gather_spec L wait count
      (if onePacket then 0 else r₂.patience terminals count s₂) (r := r₂)
      (g := ⟨ts₁.map (Track.advance r.format p.count), p, p.count,
        p.opening r.rate md⟩)
      rfl hg₂ (by rw [hl₁, List.length_map]) hT₂
    refine ⟨⟨g.total, { g.metadata with
      moreFragments := !g.last.exhausted
      endOfBurst := g.last.exhausted && g.last.header.endOfBurst }, k.filter Condition.kept⟩, g.tracks,
      if g.last.exhausted && g.last.header.endOfBurst then .idle else k.elim r.state r.state.after, s', ?_,
      .delivered hn hp ha ho (fun h1 => ?_) hG, hT'⟩
    · have ho : k.filter Condition.kept = (k.filter Condition.kept).or r.deferred := by rw [hd, Option.or_none]
      dsimp only [r₂, Option.elim_none, Portion.opening, Receiver.describe] at he ⊢
      simp only [he, ← ho]
    · rw [h1]
      exact hP

/-- A call that the arguments allow, from tracks that have given nothing in it. -/
theorem recv_spec (count wait : Nat) (onePacket : Bool) (md : RxMetadata) {r : Receiver} {ts : List Track}
    {buffers : List (List S)} {s : σ} (hr : r.channels = ts.map (·.channel)) (hne : ts ≠ [])
    (hs : ∀ t ∈ ts, t.Sound r.format) (hg : ∀ t ∈ ts, t.given = []) (hl : buffers.length = ts.length)
    (hb : ∀ b ∈ buffers, count ≤ b.length) (hT : L.Tells (ts.map (·.account)) s) :
    ∃ rep ts' st s', r.recv terminals buffers count wait onePacket md s =
        { outcome := .ok rep.count
          buffers := fill buffers (ts'.map (·.given))
          metadata := rep.metadata
          receiver := { r with channels := ts'.map (·.channel), state := st, deferred := rep.kept }
          surroundings := s' } ∧
      Call r.format r.rate count onePacket md r.deferred ts rep ts' ∧
      L.Tells (ts'.map (·.account)) s' := by
  have hne' : buffers.length = (ts.map (·.given)).length := by rw [List.length_map, hl]
  have hfill : fill buffers (ts.map (·.given)) = buffers := fill_nil hne' (by simpa using hg)
  have hc : r.channels.length = ts.length := by rw [hr, List.length_map]
  unfold Receiver.recv
  rw [if_neg (by rw [hc, hl]; exact fun h => h rfl), find?_short.2 hb]
  dsimp only
  split
  · next c hd =>
    rw [hd]
    exact ⟨⟨0, c.report r.rate md.reset, none⟩, ts, r.state, s, by rw [hfill, ← hr], .told, hT⟩
  · next hd =>
    rw [hd]
    by_cases hz : count = 0
    · obtain ⟨md', ts', st, s', he, hp, hT'⟩ := poll_spec L wait md.reset hr hne hT
      rw [if_pos hz, he]
      refine ⟨⟨0, md', none⟩, ts', st, s', ?_, .polled hz hp, hT'⟩
      rw [hp.given, hfill, ← hd]
    · obtain ⟨rep, ts', st, s', he, hC, hT'⟩ := deliver_spec L wait onePacket md (Nat.pos_of_ne_zero hz) hd hr hne
        hs hg hl hT
      rw [if_neg hz, he]
      exact ⟨rep, ts', st, s', rfl, hC, hT'⟩

/-- A call that the arguments forbid does nothing. -/
theorem recv_misuse (terminals : Nat → Terminal σ) (count wait : Nat) (onePacket : Bool) (md : RxMetadata)
    {r : Receiver} {buffers : List (List S)} (s : σ)
    (h : ¬(buffers.length = r.channels.length ∧ ∀ b ∈ buffers, count ≤ b.length)) :
    ∃ e, r.recv terminals buffers count wait onePacket md s = ⟨.error e, buffers, md, r, s⟩ := by
  unfold Receiver.recv
  by_cases hl : buffers.length = r.channels.length
  · rw [if_neg (by rw [hl]; exact fun h => h rfl)]
    cases hf : buffers.find? (·.length < count) with
    | some b => exact ⟨_, rfl⟩
    | none => exact absurd ⟨hl, find?_short.1 hf⟩ h
  · rw [if_pos hl]
    exact ⟨_, rfl⟩

end Calls

/-! ## What calls keep -/

/-- Noting a vector changes nothing but the positions. -/
theorem noteVector_eq (p : Portion) (position : Nat) (md : RxMetadata) :
    ∃ e, Receiver.noteVector p position md = { md with eov := e } := by
  unfold Receiver.noteVector
  split
  · exact ⟨_, rfl⟩
  · exact ⟨md.eov, rfl⟩

/-- Further packets change nothing but the positions. -/
theorem Gathered.metadata {format : WireFormat} {count fuel : Nat} {g g' : Gathering} {k : Option Condition}
    (h : Gathered format count fuel g k g') : ∃ e, g'.metadata = { g.metadata with eov := e } := by
  induction h with
  | @stop _ g | @refused _ g | @burst _ g => exact ⟨g.metadata.eov, rfl⟩
  | @more _ g _ _ p _ _ _ _ _ _ _ ih =>
    obtain ⟨e, he⟩ := ih
    obtain ⟨e', he'⟩ := noteVector_eq p (g.total + p.count) g.metadata
    exact ⟨e, by rw [he, Gathering.add, he']⟩

section Keeping

variable {format : WireFormat} {count : Nat}

theorem Gathered.ready {fuel : Nat} {g g' : Gathering} {k : Option Condition}
    (h : Gathered format count fuel g k g') (hr : Ready format g.total g.tracks) :
    Ready format g'.total g'.tracks := by
  induction h with
  | stop => exact hr
  | refused _ hp => exact hr.path hp
  | burst _ hp => exact hr.path hp
  | more _ hp ha _ ho _ ih => exact ih ((hr.path hp).advance ha.held ho.room)

theorem Polled.ready {ts ts' : List Track} {total : Nat} (h : Polled format ts ts') (hr : Ready format total ts) :
    Ready format total ts' := by
  cases h with
  | seen hp => exact hr.path hp
  | emptied hp =>
    have hr' := hr.path hp
    refine ⟨by simpa using hr'.nonempty, fun t ht => ?_, fun t ht => ?_⟩
    · obtain ⟨u, hu, rfl⟩ := List.mem_map.1 ht
      exact (hr'.sound u hu).drop _
    · obtain ⟨u, hu, rfl⟩ := List.mem_map.1 ht
      rw [Track.given_drop, hr'.given u hu]

theorem advance_grows (n : Nat) (ts : List Track) : Grows ts (ts.map (Track.advance format n)) :=
  .map (Track.taken_advance n) ts

theorem Gathered.grows {fuel : Nat} {g g' : Gathering} {k : Option Condition}
    (h : Gathered format count fuel g k g') : Grows g.tracks g'.tracks := by
  induction h with
  | stop => exact .refl _
  | refused _ hp | burst _ hp => exact hp.grows
  | more _ hp _ _ _ _ ih => exact hp.grows.trans ((advance_grows _ _).trans ih)

variable {rate : Float} {onePacket : Bool} {md : RxMetadata} {kept : Option Condition} {ts ts' : List Track}
  {rep : RxReport}

theorem Call.grows (h : Call format rate count onePacket md kept ts rep ts') : Grows ts ts' := by
  cases h with
  | told => exact .refl ts
  | polled _ hp =>
    cases hp with
    | seen hp => exact hp.grows
    | emptied hp => exact hp.grows.trans (.map (Track.taken_drop _) _)
  | refused _ hp => exact hp.grows
  | delivered _ hp _ _ _ hG => exact hp.grows.trans ((advance_grows _ _).trans hG.grows)

theorem Call.length (h : Call format rate count onePacket md kept ts rep ts') : ts'.length = ts.length :=
  h.grows.length_eq.symm

section Invariants

variable {P : List Bytes → Prop} {J : List Track → Prop} {Q : Condition → Prop}

/-- Further packets keep what steps keep, and what handing out samples keeps where no
burst starts. -/
theorem StepInvariant.gathered (hI : StepInvariant format P J Q)
    (hadvance : ∀ {ts m}, Aligned ts → (leading ts).any Held.startsBurst = false → Room m ts →
      (∀ t ∈ ts, P t.taken) → J ts → J (ts.map (Track.advance format m)))
    {fuel : Nat} {g g' : Gathering} {k : Option Condition} (h : Gathered format count fuel g k g')
    (hp : ∀ t ∈ g'.tracks, P t.taken) (hj : J g.tracks) : J g'.tracks ∧ ∀ c ∈ k, Q c := by
  induction h with
  | stop => exact ⟨hj, by simp⟩
  | @refused _ _ c _ _ hpath =>
    obtain ⟨h₁, hk⟩ := hI.path hpath hp hj
    exact ⟨h₁, fun c' hc => by cases hc; exact hk c List.mem_cons_self⟩
  | burst _ hpath => exact ⟨(hI.path hpath hp hj).1, by simp⟩
  | more _ hpath ha hb ho hr ih =>
    have hp₁ := hI.back (advance_grows _ _) (hI.back hr.grows hp)
    exact ih hp (hadvance ha hb ho.room hp₁ (hI.path hpath hp₁ hj).1)

theorem Invariant.gathered (hI : Invariant format P J Q) {fuel : Nat} {g g' : Gathering} {k : Option Condition}
    (h : Gathered format count fuel g k g') (hp : ∀ t ∈ g'.tracks, P t.taken) (hj : J g.tracks) :
    J g'.tracks ∧ ∀ c ∈ k, Q c :=
  hI.toStepInvariant.gathered (fun ha _ => hI.advance ha) h hp hj

/-- A call keeps an invariant. A call for no samples may let go of packets
besides. -/
theorem Invariant.call (hI : Invariant format P J Q)
    (hempty : count = 0 → ∀ {ts h}, leading ts = some h → h.remaining = 0 → J ts →
      J (ts.map (Track.drop fun _ => true)))
    (h : Call format rate count onePacket md kept ts rep ts') (hp : ∀ t ∈ ts', P t.taken) (hj : J ts) : J ts' := by
  cases h with
  | told => exact hj
  | polled hz hq =>
    cases hq with
    | seen hpath => exact (hI.path hpath hp hj).1
    | emptied hpath _ hl hr =>
      have hp₁ := hI.back (.map (Track.taken_drop _) _) hp
      exact hempty hz hl hr (hI.path hpath hp₁ hj).1
  | refused _ hpath => exact (hI.path hpath hp hj).1
  | delivered _ hpath ha ho _ hG =>
    have hp₁ := hI.back (advance_grows _ _) (hI.back hG.grows hp)
    exact (hI.gathered hG hp (hI.advance ha ho.room hp₁ (hI.path hpath hp₁ hj).1)).1

/-- A call for samples reports a condition that was kept, or one that it meets
before there are samples. What it meets later it keeps. -/
theorem Invariant.conditions (hI : Invariant format P J Q) (hcount : 0 < count)
    (h : Call format rate count onePacket md kept ts rep ts') (hp : ∀ t ∈ ts', P t.taken) (hj : J ts)
    (hk : ∀ c ∈ kept, Q c) :
    (∀ c ∈ rep.kept, Q c) ∧
      ((rep.metadata.code = .none ∧ rep.metadata.outOfSequence = false) ∨
        rep.count = 0 ∧ ∃ c, Q c ∧ rep.metadata = c.report rate md.reset) := by
  cases h with
  | @told _ c => exact ⟨by simp, .inr ⟨rfl, c, hk c rfl, rfl⟩⟩
  | polled hz => omega
  | @refused _ _ c _ hpath =>
    exact ⟨by simp, .inr ⟨rfl, c, (hI.path hpath hp hj).2 c List.mem_cons_self, rfl⟩⟩
  | delivered _ hpath ha ho _ hG =>
    refine ⟨fun c hc => ?_, .inl ?_⟩
    · have hp₁ := hI.back (advance_grows _ _) (hI.back hG.grows hp)
      exact (hI.gathered hG hp (hI.advance ha ho.room hp₁ (hI.path hpath hp₁ hj).1)).2 c
        (Option.eq_some_of_filter_eq_some hc)
    · obtain ⟨e, he⟩ := hG.metadata
      rw [Portion.opening] at he
      obtain ⟨e', he'⟩ := noteVector_eq _ _ _
      rw [he'] at he
      rw [he]
      exact ⟨rfl, rfl⟩

end Invariants

/-- Silence is not kept for the next call. -/
theorem Call.keeps (h : Call format rate count onePacket md kept ts rep ts') : ∀ c ∈ rep.kept, c.kept = true := by
  cases h with
  | told | polled | refused => simp
  | delivered => exact fun c hc => (Option.filter_eq_some_iff.1 hc).2

/-- What bringing in packets, letting them go and handing out samples do not change
of a track, a call does not change. -/
theorem Call.map_eq {α : Type} {f : Track → α} (hfetch : ∀ {t k t'}, Fetched format t k t' → f t' = f t)
    (hdrop : ∀ test t, f (t.drop test) = f t) (hadvance : ∀ n t, f (t.advance format n) = f t)
    (h : Call format rate count onePacket md kept ts rep ts') : ts'.map f = ts.map f := by
  have hI : Invariant format (fun _ => True) (fun us => us.map f = ts.map f) (fun _ => True) :=
    { closed := fun _ _ => trivial
      step := fun hs _ hi => ⟨(hs.map_eq hfetch hdrop).trans hi, fun _ _ => trivial⟩
      advance := fun {us n} _ _ _ hi => by
        rw [List.map_map, ← hi]
        exact List.map_congr_left fun t _ => hadvance n t }
  refine hI.call (fun _ us h _ _ hi => ?_) h (fun _ _ => trivial) rfl
  rw [List.map_map, ← hi]
  exact List.map_congr_left fun t _ => hdrop _ t

theorem Call.earlier (h : Call format rate count onePacket md kept ts rep ts') :
    ts'.map (·.earlier) = ts.map (·.earlier) :=
  h.map_eq Fetched.earlier Track.earlier_drop Track.earlier_advance

theorem Call.sent (h : Call format rate count onePacket md kept ts rep ts') :
    ts'.map (·.sent) = ts.map (·.sent) :=
  h.map_eq Fetched.sent Track.sent_drop Track.sent_advance

/-- Each track gives as many samples as the call reports. -/
theorem Call.ready (h : Call format rate count onePacket md kept ts rep ts') (hr : Ready format 0 ts) :
    Ready format rep.count ts' := by
  cases h with
  | told => exact hr
  | polled _ hp => exact hp.ready hr
  | refused _ hp => exact hr.path hp
  | delivered _ hp ha ho _ hG =>
    have := (hr.path hp).advance ha.held ho.room
    rw [Nat.zero_add] at this
    exact hG.ready this

end Keeping

end RadioStream
