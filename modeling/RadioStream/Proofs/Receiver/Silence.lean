import RadioStream.Proofs.Lane
import RadioStream.Proofs.Receiver.Conditions
/-!
# What a silent channel hides

A call takes packets from its channels in their order, and the first channel on which
nothing comes in time ends it with a timeout. The channels behind that one are not looked
at, so a report of the device that waits on one of them is told by a later call only.

`timeout_hides_later` has both sides of it: what a timeout hides lies behind the first
channel without a packet, and a call that finds this channel silent changes nothing else.
-/

namespace RadioStream

/-! ## What waits for a receiver -/

/-- A way to tell the frames that wait on each link. A terminal that gives none has none
waiting. -/
structure Inbox {σ : Type} (terminals : Nat → Terminal σ) where
  waiting : Nat → σ → List Bytes
  silent : ∀ {i wait s s'}, (terminals i).receive wait s = (none, s') → waiting i s' = []

/-- The frames on their way to the host. -/
def Inbox.host : Inbox Terminal.host where
  waiting i ls := (ls[i]?.map fun l => l.toHost.pending).getD []
  silent {i wait ls ls'} h := by
    simp only [Terminal.host, Terminal.within] at h
    cases hl : ls[i]? with
    | none =>
      rw [hl] at h
      cases h
      rw [hl]
      rfl
    | some l =>
      rw [hl] at h
      rcases hr : l.toHost.receive with ⟨f, lane⟩
      have hlt : i < ls.length := (List.getElem?_eq_some_iff.1 hl).1
      simp only [Terminal.ofEnd, Link.receive, Link.inbound, Link.withInbound, hr, Prod.mk.injEq] at h
      obtain ⟨rfl, rfl⟩ := h
      obtain ⟨hi, rfl⟩ := Lane.receive_none hr
      simp [hlt, Lane.pending, hi]

/-- The first channel that holds no packet. -/
def firstWithout? (cs : List RxChannel) : Option Nat := cs.findIdx? fun c => c.held.isNone

/-- A channel without a packet, on which a report of the device is the next to come in. -/
def RxSession.Hides {S σ : Type} {terminals : Nat → Terminal σ} (I : Inbox terminals) (x : RxSession S σ) (j : Nat) :
    Prop :=
  (∃ c, x.receiver.channels[j]? = some c ∧ c.held = none) ∧
    ∃ frame rest code tick, I.waiting j x.surroundings = frame :: rest ∧
      Incoming.ofFrame x.receiver.format frame = .status code tick

/-- Nothing is hidden on a channel that holds a packet. -/
theorem RxSession.Hides.le {S σ : Type} {terminals : Nat → Terminal σ} {I : Inbox terminals} {x : RxSession S σ}
    {i j : Nat} (h : x.Hides I j) (hi : firstWithout? x.receiver.channels = some i) : i ≤ j := by
  obtain ⟨⟨c, hc, hn⟩, -⟩ := h
  obtain ⟨hj, he⟩ := List.getElem?_eq_some_iff.1 hc
  by_contra hlt
  have hp := (List.findIdx?_eq_some_iff_getElem.1 hi).2.2 j (Nat.lt_of_not_le hlt)
  rw [he, hn] at hp
  exact hp rfl

/-! ## Where an alignment stops -/

section Alignment

variable {σ : Type} {terminals : Nat → Terminal σ} {format : WireFormat} {wait : Nat} {s s' : σ} {k : Condition}

/-- A timeout on a channel: nothing came in, or the device itself reports one. -/
def TimedOut (t : Terminal σ) (wait : Nat) (k : Condition) (s' : σ) : Prop :=
  (k = .silence ∧ ∃ s, t.receive wait s = (none, s')) ∨ ∃ tick, k = .status .timeout tick

theorem fetch_held {t : Terminal σ} {c c' : RxChannel} (h : RxChannel.fetch t format wait c s = (none, c', s')) :
    c'.held.isNone = false := by
  unfold RxChannel.fetch at h
  split at h
  · next hh =>
    cases h
    simpa using hh
  · split at h
    · cases h
    · split at h
      · cases h
      · cases h
      · rw [← (Prod.mk.inj (Prod.mk.inj h).2).1]
        rfl

theorem fetch_timeout {t : Terminal σ} {c c' : RxChannel} (h : RxChannel.fetch t format wait c s = (some k, c', s'))
    (hk : k.code = .timeout) : c'.held.isNone = true ∧ TimedOut t wait k s' := by
  unfold RxChannel.fetch at h
  split at h
  · cases h
  · next hh =>
    have hn : c.held.isNone = true := by simpa using hh
    split at h
    · next hr =>
      cases h
      exact ⟨hn, .inl ⟨rfl, s, hr⟩⟩
    · split at h
      · cases h
        cases hk
      · cases h
        -- the code is that of the report
        cases hk
        exact ⟨hn, .inr ⟨_, rfl⟩⟩
      · dsimp only at h
        split at h <;> cases h
        cases hk

theorem fetchAll_timeout {first : Nat} {cs cs' : List RxChannel}
    (h : RxChannel.fetchAll terminals format wait first cs s = (some k, cs', s')) (hk : k.code = .timeout) :
    ∃ i, firstWithout? cs' = some i ∧ TimedOut (terminals (first + i)) wait k s' := by
  induction cs generalizing first s cs' with
  | nil => cases h
  | cons c cs ih =>
    rw [RxChannel.fetchAll] at h
    rcases hf : RxChannel.fetch (terminals first) format wait c s with ⟨_ | k₁, c₁, s₁⟩ <;> rw [hf] at h <;>
      dsimp only at h
    · rcases hr : RxChannel.fetchAll terminals format wait (first + 1) cs s₁ with ⟨k₂, cs₂, s₂⟩
      rw [hr] at h
      cases h
      obtain ⟨i, hi, ht⟩ := ih hr
      refine ⟨i + 1, ?_, by rwa [Nat.add_right_comm] at ht⟩
      rw [firstWithout?] at hi ⊢
      rw [List.findIdx?_cons, fetch_held hf, hi]
      rfl
    · cases h
      obtain ⟨hn, ht⟩ := fetch_timeout hf hk
      exact ⟨0, by rw [firstWithout?, List.findIdx?_cons, hn]; rfl, ht⟩

theorem alignRounds_timeout {rounds : Nat} {cs cs' : List RxChannel}
    (h : Receiver.alignRounds terminals format wait rounds cs s = (some k, cs', s')) (hk : k.code = .timeout) :
    ∃ i, firstWithout? cs' = some i ∧ TimedOut (terminals i) wait k s' := by
  induction rounds generalizing cs s with
  | zero =>
    cases h
    cases hk
  | succ rounds ih =>
    rw [Receiver.alignRounds] at h
    split at h
    · next hf =>
      cases h
      obtain ⟨i, hi, ht⟩ := fetchAll_timeout hf hk
      exact ⟨i, hi, by rwa [Nat.zero_add] at ht⟩
    · split at h
      · cases h
      · split at h
        · exact ih h
        · cases h

/-- An alignment that ends with a timeout ends at the first channel without a packet. -/
theorem align_timeout {r r' : Receiver} (h : r.align terminals wait s = (some k, r', s')) (hk : k.code = .timeout) :
    ∃ i, firstWithout? r'.channels = some i ∧ TimedOut (terminals i) wait k s' := by
  unfold Receiver.align at h
  rcases ha : Receiver.alignRounds terminals r.format wait (r.channels.length * Receiver.roundsPerChannel) r.channels s
    with ⟨k', cs, s₁⟩
  dsimp only at h
  rw [ha] at h
  cases h
  exact alignRounds_timeout ha hk

theorem fetchAll_silent {first i : Nat} {cs : List RxChannel} (hi : firstWithout? cs = some i)
    (hr : (terminals (first + i)).receive wait s = (none, s')) :
    RxChannel.fetchAll terminals format wait first cs s = (some .silence, cs, s') := by
  induction cs generalizing first i with
  | nil => cases hi
  | cons c cs ih =>
    rw [firstWithout?, List.findIdx?_cons] at hi
    unfold RxChannel.fetchAll RxChannel.fetch
    cases hh : c.held with
    | none =>
      simp only [hh, Option.isNone_none, if_true, Option.some.injEq] at hi
      subst hi
      rw [Nat.add_zero] at hr
      simp [hr]
    | some g =>
      simp only [hh, Option.isNone_some, Bool.false_eq_true, if_false, Option.map_eq_some_iff] at hi
      obtain ⟨i, hi, rfl⟩ := hi
      rw [← Nat.add_assoc, Nat.add_right_comm] at hr
      simp [ih hi hr]

/-- An alignment that finds the first channel without a packet silent changes nothing
else. -/
theorem align_silent {r : Receiver} {i : Nat} (hi : firstWithout? r.channels = some i)
    (hr : (terminals i).receive wait s = (none, s')) : r.align terminals wait s = (some .silence, r, s') := by
  have hne : r.channels ≠ [] := by
    rintro hnil
    rw [hnil] at hi
    cases hi
  exact Receiver.align_of_fetchAll hne (fetchAll_silent hi (by rwa [Nat.zero_add])) (by simp)

end Alignment

/-! ## Calls that report a timeout -/

section Calls

variable {S σ : Type} [HostSample S] {terminals : Nat → Terminal σ} {wait count : Nat} {r : Receiver}
  {buffers : List (List S)} {md : RxMetadata} {s : σ} {es : List RxEvent} {y : Received S σ}

/-- A timeout that is reported is the only condition met, on the first channel that is left
without a packet. -/
theorem Receives.timeout (h : Receives terminals r buffers count wait md s es y)
    (hd : ∀ c ∈ r.deferred, c.code ≠ .timeout) {n : Nat} (hy : y.outcome = .ok n) (hc : y.metadata.code = .timeout) :
    ∃ k i, conditionsOf es = [k] ∧ firstWithout? y.receiver.channels = some i ∧
      TimedOut (terminals i) wait k y.surroundings := by
  cases h with
  | misuse => cases hy
  | told he =>
    rw [code_report] at hc
    exact absurd hc (hd _ he)
  | @unseen c _ _ _ _ ha =>
    -- a poll says nothing of a timeout
    dsimp only at hc
    split at hc
    · simp [RxMetadata.reset] at hc
    · next hk =>
      rw [code_report] at hc
      exact absurd hc hk
  | seen _ _ _ hm | emptied _ _ _ hm =>
    dsimp only at hc
    rw [hm] at hc
    cases hc
  | @refused c _ _ _ _ ha =>
    rw [code_report] at hc
    obtain ⟨i, hi, ht⟩ := align_timeout ha hc
    exact ⟨c, i, rfl, hi, ht⟩
  | delivered _ _ _ _ _ hm hg =>
    have hcode := hg.code.trans hm
    dsimp only at hc
    rw [hcode] at hc
    cases hc

/-- A call for samples that finds the first channel without a packet silent does nothing
but wait. -/
theorem Receiver.recv_silent (hd : r.deferred = none) (hl : buffers.length = r.channels.length)
    (hb : ∀ b ∈ buffers, count ≤ b.length) (hcount : 0 < count) {i : Nat} (hi : firstWithout? r.channels = some i)
    {s' : σ} (hr : (terminals i).receive wait s = (none, s')) (onePacket : Bool) (md : RxMetadata) :
    r.recv terminals buffers count wait onePacket md s =
      ⟨.ok 0, buffers, Condition.report .silence r.rate md.reset, r, s'⟩ := by
  unfold Receiver.recv Receiver.deliver
  rw [if_neg (by simp [hl]), find?_short.2 hb]
  dsimp only
  rw [hd]
  dsimp only
  rw [if_neg (by omega), align_silent hi hr]

end Calls

namespace RxSession

variable {S σ : Type} [HostSample S] {terminals : Nat → Terminal σ}

theorem Patient.run {x : RxSession S σ} (h : x.Patient) (as : List (RxAction S σ)) : (x.run terminals as).Patient := by
  induction as generalizing x with
  | nil => exact h
  | cons a as ih => exact ih ((step_notices terminals x a).2.1 h)

end RxSession

/-- A call that reports a timeout has stopped at a channel without a packet, and any report
of the device that waits on a channel without a packet is on a later one, unless the timeout
itself was a report. And whenever the first channel without a packet stays silent, a call
changes nothing: what waits on later channels is not told. -/
theorem timeout_hides_later {S σ : Type} [HostSample S] {terminals : Nat → Terminal σ} (I : Inbox terminals)
    {sizes : List Nat} {format : WireFormat} {rate : Float} {packetSamples : Nat} {r : Receiver}
    (hr : Receiver.new sizes format rate packetSamples = .ok r) (s : σ) (as : List (RxAction S σ))
    (buffers : List (List S)) (count wait : Nat) (onePacket : Bool) (md : RxMetadata) :
    let x : RxSession S σ := ⟨r, s, []⟩
    let call : RxAction S σ := .recv buffers count wait onePacket md
    let y := x.run terminals as
    let z := x.run terminals (as ++ [call])
    (∀ c ∈ y.call? terminals call, ∀ n, c.returned.outcome = .ok n → c.returned.metadata.code = .timeout →
      ∃ i, firstWithout? z.receiver.channels = some i ∧
        ((c.met = [.silence] ∧ ∀ j, z.Hides I j → i < j) ∨
          (∃ tick, c.met = [.status .timeout tick]) ∧ ∀ j, z.Hides I j → i ≤ j)) ∧
    (y.kept? = none → buffers.length = y.receiver.channels.length → (∀ b ∈ buffers, count ≤ b.length) → 0 < count →
      ∀ i s', firstWithout? y.receiver.channels = some i → (terminals i).receive wait y.surroundings = (none, s') →
        z = ⟨y.receiver, s', y.returns ++ [⟨.ok 0, buffers, Condition.report .silence y.receiver.rate md.reset⟩]⟩) := by
  intro x call y z
  have hz : z = y.step terminals call := RxSession.run_concat terminals x as call
  constructor
  · intro c hc n hn hcode
    obtain ⟨-, rfl⟩ := Receiver.eq_of_new hr
    have hpatient : y.Patient := RxSession.Patient.run (x := x) (by simp [x, RxSession.Patient, RxSession.kept?]) as
    have hR := recv_receives terminals y.receiver buffers count wait onePacket md y.surroundings
    cases hc
    obtain ⟨k, i, hk, hi, ht⟩ := hR.timeout hpatient hn hcode
    rw [hz]
    refine ⟨i, hi, ?_⟩
    rcases ht with ⟨rfl, s₀, hs⟩ | ⟨tick, rfl⟩
    · refine .inl ⟨hk, fun j hj => lt_of_le_of_ne (hj.le hi) ?_⟩
      -- nothing waits on the silent channel itself
      rintro rfl
      obtain ⟨-, frame, rest, _, _, hw, -⟩ := hj
      have hnil : I.waiting i (y.step terminals call).surroundings = [] := I.silent hs
      rw [hnil] at hw
      cases hw
    · exact .inr ⟨⟨tick, hk⟩, fun j hj => hj.le hi⟩
  · intro hkept hl hb hcount i s' hi hs
    rw [hz, RxSession.step, Receiver.recv_silent hkept hl hb hcount hi hs]

/-- Nothing comes on the first link while the late command is reported on the second: the
call times out and the report is left there. -/
theorem timeout_hides_later_report :
    let report := (RxCode.encode .lateCommand (some 5) (List.replicate 20 0)).frame
    let lane : Lane := { home := { frameSize := 64, frames := 4, idle := Queue.new 4 }, waiting := Queue.new 4 }
    let links : List Link :=
      [{ toHost := lane, toDevice := lane }, { toHost := lane.submit ⟨0, report, 20⟩, toDevice := lane }]
    let r : Receiver := { channels := [{}, {}], format := .sc16, rate := 1, packetSamples := 8 }
    let x : RxSession (Iq Int16) (List Link) := ⟨r, links, []⟩
    let buffers : List (List (Iq Int16)) := [[⟨0, 0⟩], [⟨0, 0⟩]]
    let z := x.run Terminal.host [.recv buffers 1 0 false {}]
    Receiver.new [64, 64] .sc16 1 8 = .ok r ∧
      z = ⟨r, links, [⟨.ok 0, buffers, Condition.report .silence 1 {}⟩]⟩ ∧ z.Hides Inbox.host 1 := by
  intro report lane links r x buffers z
  have hr : Receiver.new [64, 64] .sc16 1 8 = .ok r := rfl
  have hz : z = ⟨r, links, [⟨.ok 0, buffers, Condition.report .silence 1 {}⟩]⟩ :=
    (timeout_hides_later Inbox.host hr links [] buffers 1 0 false {}).2 rfl rfl (by decide) (by decide) 0 links rfl rfl
  refine ⟨hr, hz, ?_⟩
  rw [hz]
  exact ⟨⟨{}, rfl, rfl⟩, report, [], .lateCommand, some 5, rfl, by decide +kernel⟩

end RadioStream
