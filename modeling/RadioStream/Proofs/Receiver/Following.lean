import RadioStream.Receiver.Basic
/-!
# The state of a receiver of one channel

A receiver changes its state when it meets a report of the device and when it has handed
out the last packet of a burst (`StreamState.meets`). With one channel it does so packet
by packet: it brings one in, hands out its samples and lets it go.

A property of the state, the packet held and the surroundings that each of these keeps
(`Follows`) is kept by every receive call (`Follows.recv`).
-/

namespace RadioStream

/-- The state once a packet was dealt with. -/
def StreamState.meets (s : StreamState) : Incoming → StreamState
  | .data h _ => if h.endOfBurst then .idle else s
  | .status code tick => s.after (.status code tick)
  | .malformed => s

/-- What the handling of packets keeps. -/
structure Follows {σ : Type} (terminal : Terminal σ) (format : WireFormat)
    (P : StreamState → Option Held → σ → Prop) : Prop where
  silence : ∀ {st wait s s'}, P st none s → terminal.receive wait s = (none, s') → P st none s'
  /-- A packet without samples goes home at once. -/
  pass : ∀ {st wait s s' f}, P st none s → terminal.receive wait s = (some f, s') →
    (∀ h n, Incoming.ofFrame format f.payload ≠ .data h n) →
    P (st.meets (.ofFrame format f.payload)) none (terminal.recycle f s')
  hold : ∀ {st wait s s' f h n}, P st none s → terminal.receive wait s = (some f, s') →
    Incoming.ofFrame format f.payload = .data h n → P st (some { frame := f, header := h, samples := n }) s'
  advance : ∀ {st h s} (n : Nat), P st (some h) s → P st (some { h with offset := h.offset + n }) s
  letGo : ∀ {st h s}, P st (some h) s → P (st.meets (.data h.header h.samples)) none (terminal.recycle h.frame s)

namespace Follows

variable {σ S : Type} [HostSample S] {terminals : Nat → Terminal σ} {format : WireFormat}
  {P : StreamState → Option Held → σ → Prop}

/-- A packet is brought in, or a condition changes the state. -/
theorem fetch (h : Follows (terminals 0) format P) (wait : Nat) {st : StreamState} {c : RxChannel} {s : σ}
    (hp : P st c.held s) :
    ∃ k c' s', RxChannel.fetch (terminals 0) format wait c s = (k, c', s') ∧
      P (k.elim st st.after) c'.held s' ∧ (k = none → c'.held.isSome) := by
  unfold RxChannel.fetch
  by_cases hh : c.held.isSome
  · rw [if_pos hh]
    exact ⟨none, c, s, rfl, hp, fun _ => hh⟩
  · rw [if_neg hh]
    have hn : c.held = none := by simpa using hh
    rw [hn] at hp
    rcases hr : (terminals 0).receive wait s with ⟨_ | f, s₁⟩
    · exact ⟨_, c, s₁, rfl, by rw [hn]; exact h.silence hp hr, by simp⟩
    · dsimp only
      cases hi : Incoming.ofFrame format f.payload with
      | malformed =>
        have hq := h.pass hp hr (by simp [hi])
        rw [hi] at hq
        exact ⟨_, c, _, rfl, by rw [hn]; exact hq, by simp⟩
      | status code tick =>
        have hq := h.pass hp hr (by simp [hi])
        rw [hi] at hq
        exact ⟨_, c, _, rfl, by rw [hn]; exact hq, by simp⟩
      | data g n =>
        refine ⟨_, _, s₁, rfl, ?_, fun _ => rfl⟩
        -- a gap is a condition too, but leaves the state alone
        split <;> exact h.hold hp hr hi

/-- The receiver has one channel, and the property holds. -/
def Holds (format : WireFormat) (P : StreamState → Option Held → σ → Prop) (r : Receiver) (s : σ) : Prop :=
  r.format = format ∧ ∃ c, r.channels = [c] ∧ P r.state c.held s

theorem behind_newest {c : RxChannel} {newest : Nat} (hn : Receiver.newestTick [c] = some newest) :
    ([c].any fun c => c.held.any (Held.behind newest)) = false := by
  cases hh : c.held with
  | none => simp [hh]
  | some g =>
    cases ht : g.tick? with
    | none => simp [Receiver.newestTick, hh, ht] at hn
    | some tick =>
      obtain rfl : tick = newest := by simpa [Receiver.newestTick, hh, ht] using hn
      simp [hh, Held.behind, ht]

/-- One channel is aligned as soon as it holds a packet. -/
theorem align (h : Follows (terminals 0) format P) (wait : Nat) {r : Receiver} {s : σ} (hp : Holds format P r s) :
    ∃ k r' s', r.align terminals wait s = (k, r', s') ∧ Holds format P r' s' ∧ (k = none → r'.leading?.isSome) := by
  obtain ⟨rfl, c, hc, hp⟩ := hp
  obtain ⟨k, c', s', hf, hp', hk⟩ := h.fetch wait hp
  have hall : RxChannel.fetchAll terminals r.format wait 0 [c] s = (k, [c'], s') := by
    unfold RxChannel.fetchAll
    rw [hf]
    cases k <;> rfl
  rw [← hc] at hall
  refine ⟨k, _, s', Receiver.align_of_fetchAll (by simp [hc]) hall fun _ _ => behind_newest, ⟨rfl, c', rfl, ?_⟩,
    fun he => ?_⟩
  · cases k <;> exact hp'
  · exact hk he

/-- The state once the last packet of a burst has been handed out. -/
def settled (r : Receiver) (last : Portion) : Receiver :=
  { r with state := if last.exhausted && last.header.endOfBurst then .idle else r.state }

theorem Holds.settled_of_not {r : Receiver} {s : σ} (hp : Holds format P r s) {last : Portion}
    (hl : (last.exhausted && last.header.endOfBurst) = false) : Holds format P (settled r last) s := by
  unfold settled
  rw [hl]
  exact hp

/-- A portion is handed out. -/
theorem consume (h : Follows (terminals 0) format P) (position most : Nat) {r : Receiver} {s : σ}
    (hp : Holds format P r s) (hl : r.leading?.isSome) (buffers : List (List S)) :
    ∃ p r' buffers' s', r.consume terminals position most buffers s = (p, r', buffers', s') ∧
      Holds format P (settled r' p) s' := by
  obtain ⟨rfl, c, hc, hp⟩ := hp
  obtain ⟨g, hg⟩ := Option.isSome_iff_exists.1 hl
  have hh : c.held = some g := by simpa [Receiver.leading?, hc] using hg
  rw [hh] at hp
  unfold Receiver.consume
  rw [hg]
  dsimp only
  generalize min (Receiver.commonRemaining r.channels) most = n
  rw [hc]
  cases buffers with
  | nil =>
    unfold RxChannel.advanceAll
    refine ⟨_, _, _, s, rfl, Holds.settled_of_not ⟨rfl, c, rfl, hh ▸ hp⟩ ?_⟩
    simp [hh]
  | cons b bs =>
    unfold RxChannel.advanceAll RxChannel.advance
    rw [hh]
    dsimp only
    have ha := h.advance n hp
    by_cases hz : ({ g with offset := g.offset + n } : Held).remaining = 0
    · rw [if_pos hz]
      have hq := h.letGo ha
      exact ⟨_, _, _, _, rfl, rfl, _, rfl, hq⟩
    · rw [if_neg hz]
      exact ⟨_, _, _, _, rfl, Holds.settled_of_not ⟨rfl, _, rfl, ha⟩ rfl⟩

theorem gather (h : Follows (terminals 0) format P) (wait count fuel : Nat) {last : Portion} (total : Nat)
    {r : Receiver} {s : σ} (hp : Holds format P (settled r last) s) (buffers : List (List S)) (md : RxMetadata) :
    ∃ last' total' r' buffers' md' s', Receiver.gather terminals wait count fuel last total r buffers md s =
        (last', total', r', buffers', md', s') ∧ Holds format P (settled r' last') s' := by
  induction fuel generalizing last total r s buffers md with
  | zero => exact ⟨last, total, r, buffers, md, s, rfl, hp⟩
  | succ fuel ih =>
    unfold Receiver.gather
    by_cases hw : (last.exhausted && !last.header.endOfBurst && total < count) = true
    · rw [if_pos hw]
      -- the burst has not ended
      have hl : (last.exhausted && last.header.endOfBurst) = false := by
        cases he : last.header.endOfBurst <;> simp_all
      have hp₀ : Holds format P r s := by
        unfold settled at hp
        rwa [hl] at hp
      obtain ⟨k, r₁, s₁, ha, hp₁, hk⟩ := h.align wait hp₀
      rw [ha]
      cases k with
      | some k =>
        dsimp only
        refine ⟨_, _, _, _, _, s₁, rfl, Holds.settled_of_not ?_ hl⟩
        split <;> exact hp₁
      | none =>
        dsimp only
        by_cases hb : r₁.leading?.any Held.startsBurst = true
        · rw [if_pos hb]
          exact ⟨_, _, r₁, _, _, s₁, rfl, hp₁.settled_of_not hl⟩
        · rw [if_neg hb]
          obtain ⟨p, r₂, buffers₂, s₂, hc, hp₂⟩ := h.consume total (count - total) hp₁ (hk rfl) buffers
          rw [hc]
          exact ih _ hp₂ _ _
    · rw [if_neg hw]
      exact ⟨last, total, r, buffers, md, s, rfl, hp⟩

theorem poll (h : Follows (terminals 0) format P) (wait : Nat) {r : Receiver} {s : σ} (hp : Holds format P r s)
    (md : RxMetadata) :
    ∃ md' r' s', r.poll terminals wait md s = (md', r', s') ∧ Holds format P r' s' := by
  obtain ⟨k, r₁, s₁, ha, hp₁, hk⟩ := h.align wait hp
  unfold Receiver.poll
  rw [ha]
  cases k with
  | some k => exact ⟨_, r₁, s₁, rfl, hp₁⟩
  | none =>
    obtain ⟨g, hg⟩ := Option.isSome_iff_exists.1 (hk rfl)
    dsimp only
    rw [hg]
    dsimp only
    by_cases hz : g.remaining = 0
    · rw [if_pos hz]
      obtain ⟨rfl, c, hc, hp₁⟩ := hp₁
      have hh : c.held = some g := by simpa [Receiver.leading?, hc] using hg
      rw [hh] at hp₁
      rw [hc]
      unfold RxChannel.dropWhere RxChannel.letGo
      rw [hh]
      exact ⟨_, _, _, rfl, rfl, _, rfl, h.letGo hp₁⟩
    · rw [if_neg hz]
      exact ⟨_, r₁, s₁, rfl, hp₁⟩

theorem deliver (h : Follows (terminals 0) format P) (buffers : List (List S)) (count wait : Nat) (onePacket : Bool)
    (md : RxMetadata) {r : Receiver} {s : σ} (hp : Holds format P r s) :
    Holds format P (r.deliver terminals buffers count wait onePacket md s).receiver
      (r.deliver terminals buffers count wait onePacket md s).surroundings := by
  obtain ⟨k, r₁, s₁, ha, hp₁, hk⟩ := h.align wait hp
  unfold Receiver.deliver
  rw [ha]
  cases k with
  | some k => exact hp₁
  | none =>
    dsimp only
    obtain ⟨p, r₂, buffers₂, s₂, hc, hp₂⟩ := h.consume 0 count hp₁ (hk rfl) buffers
    rw [hc]
    dsimp only
    obtain ⟨last, total, r₃, buffers₃, md₃, s₃, hg, hp₃⟩ := h.gather wait count
      (if onePacket then 0 else r₂.patience terminals count s₂) p.count hp₂ buffers₂
      (Receiver.noteVector p p.count (r₂.describe p.header p.offset md))
    rw [hg]
    exact hp₃

/-- Whatever a call asks for. -/
theorem recv (h : Follows (terminals 0) format P) (buffers : List (List S)) (count wait : Nat) (onePacket : Bool)
    (md : RxMetadata) {r : Receiver} {s : σ} (hp : Holds format P r s) :
    Holds format P (r.recv terminals buffers count wait onePacket md s).receiver
      (r.recv terminals buffers count wait onePacket md s).surroundings := by
  unfold Receiver.recv
  split
  · exact hp
  · split
    · exact hp
    · dsimp only
      split
      · exact hp
      · split
        · obtain ⟨md', r', s', he, hp'⟩ := h.poll wait hp md.reset
          rw [he]
          exact hp'
        · exact h.deliver buffers count wait onePacket _ hp

end Follows

end RadioStream
