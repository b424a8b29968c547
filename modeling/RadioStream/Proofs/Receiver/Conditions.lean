import RadioStream.Proofs.Receiver.Journal
/-!
# Conditions are reported once

A condition can be met in the first alignment of a call, in a later one, and then it is
kept for the next call, or in a poll. Wherever it is met, it is reported once and in
its turn: what calls have reported, with what is kept, is what they have met
(`Receives.notices`), and by induction so it is for a run.
-/

namespace RadioStream

/-- What metadata tells of an error. -/
structure Notice where
  code : RxCode
  outOfSequence : Bool
  time : Option Instant

/-- The error that metadata reports. No error is one, and neither is a timeout. -/
def RxMetadata.notice? (md : RxMetadata) : Option Notice :=
  if md.code = .none ∨ md.code = .timeout then none
  else some ⟨md.code, md.outOfSequence, if md.hasTime then some md.time else none⟩

/-- The tick that a condition came with. -/
def Condition.tick? : Condition → Option UInt64
  | status _ tick => tick
  | silence | malformed | gap | misaligned => none

/-- How a condition is to be reported, if it is an error. -/
def Condition.notice? (rate : Float) (c : Condition) : Option Notice :=
  if c.code = .none ∨ c.code = .timeout then none
  else some ⟨c.code, c == .gap, c.tick?.map (Instant.ofCounter · rate)⟩

/-- The error that a call reports. -/
def RxReturn.notice? {S : Type} (x : RxReturn S) : Option Notice :=
  match x.outcome with
  | .ok _ => x.metadata.notice?
  | .error _ => none

/-- How some conditions are to be reported, one after the other. -/
def noticesOf (rate : Float) (cs : List Condition) : List Notice := cs.filterMap (Condition.notice? rate)

theorem noticesOf_append (rate : Float) (cs ds : List Condition) :
    noticesOf rate (cs ++ ds) = noticesOf rate cs ++ noticesOf rate ds := List.filterMap_append

theorem noticesOf_singleton (rate : Float) (c : Condition) : noticesOf rate [c] = (c.notice? rate).toList := by
  rw [noticesOf, List.filterMap_cons]
  cases c.notice? rate <;> rfl

section Reports

variable (rate : Float) (md : RxMetadata) {c : Condition}

theorem notice_report (c : Condition) : (c.report rate md.reset).notice? = c.notice? rate := by
  cases c with
  | status code tick => cases tick <;> rfl
  | silence | malformed | gap | misaligned => rfl

theorem notice_of_code {md : RxMetadata} (h : md.code = .none) : md.notice? = none := by
  rw [RxMetadata.notice?, if_pos (.inl h)]

theorem code_report (c : Condition) : (c.report rate md).code = c.code := by
  cases c with
  | status code tick => cases tick <;> rfl
  | silence | malformed | gap | misaligned => rfl

/-- A timeout is not told as an error. -/
theorem notice_of_timeout (h : c.code = .timeout) : c.notice? rate = none := by
  rw [Condition.notice?, if_pos (.inr h)]

end Reports

/-! ## One call -/

section Calls

variable {S σ : Type} [HostSample S] {terminals : Nat → Terminal σ} {wait count : Nat}

namespace Gathers

variable {fuel : Nat} {g g' : Stage S σ} {es : List RxEvent}

/-- What a call meets after its first portion is kept, unless it is a timeout. -/
theorem notices (h : Gathers terminals wait count fuel g es g') (hd : g.receiver.deferred = none) (rate : Float) :
    noticesOf rate g'.receiver.deferred.toList = noticesOf rate (conditionsOf es) := by
  induction h with
  | stop =>
    rw [hd]
    rfl
  | @refused _ _ c _ _ _ ha =>
    obtain ⟨cs, state, rfl⟩ := align_keeps terminals ha
    by_cases hc : c.code = .timeout
    · simp [hc, hd, noticesOf, notice_of_timeout rate hc]
    · simp [hc]
  | burst _ ha =>
    obtain ⟨cs, state, rfl⟩ := align_keeps terminals ha
    dsimp only
    rw [hd]
    rfl
  | more _ ha hc _ ih =>
    obtain ⟨cs, state, rfl⟩ := align_keeps terminals ha
    obtain ⟨cs', rfl⟩ := consume_keeps terminals hc
    exact ih hd

theorem deferred_ne_timeout (h : Gathers terminals wait count fuel g es g')
    (hd : ∀ c ∈ g.receiver.deferred, c.code ≠ .timeout) : ∀ c ∈ g'.receiver.deferred, c.code ≠ .timeout := by
  induction h with
  | stop => exact hd
  | @refused _ _ c _ _ _ ha =>
    obtain ⟨cs, state, rfl⟩ := align_keeps terminals ha
    by_cases hc : c.code = .timeout
    · simpa [hc] using hd
    · simp [hc]
  | burst _ ha =>
    obtain ⟨cs, state, rfl⟩ := align_keeps terminals ha
    exact hd
  | more _ ha hc _ ih =>
    obtain ⟨cs, state, rfl⟩ := align_keeps terminals ha
    obtain ⟨cs', rfl⟩ := consume_keeps terminals hc
    exact ih hd

/-- A call that returns samples says no more of a condition. -/
theorem code (h : Gathers terminals wait count fuel g es g') : g'.metadata.code = g.metadata.code := by
  induction h with
  | stop | refused | burst => rfl
  | more _ _ _ _ ih => rw [ih, code_noteVector]

end Gathers

namespace Receives

variable {r : Receiver} {buffers : List (List S)} {md : RxMetadata} {s : σ} {es : List RxEvent} {y : Received S σ}

/-- What a call reports, with what it keeps, is what was kept before it and what it
met. -/
theorem notices (h : Receives terminals r buffers count wait md s es y) :
    (RxReturn.mk y.outcome y.buffers y.metadata).notice?.toList ++ noticesOf r.rate y.receiver.deferred.toList =
      noticesOf r.rate r.deferred.toList ++ noticesOf r.rate (conditionsOf es) := by
  cases h with
  | misuse => simp [RxReturn.notice?, noticesOf]
  | told hd =>
    rw [hd, Option.toList_some, noticesOf_singleton, ← notice_report r.rate md]
    rfl
  | @unseen c _ _ _ hd ha =>
    obtain ⟨cs, state, rfl⟩ := align_keeps terminals ha
    dsimp only [RxReturn.notice?]
    rw [hd, conditionsOf_met, conditionsOf_nil, noticesOf_singleton]
    -- a poll says nothing of a timeout
    by_cases hc : c.code = .timeout
    · rw [if_pos hc, notice_of_timeout r.rate hc]
      rfl
    · rw [if_neg hc, notice_report]
      simp [noticesOf]
  | seen _ hd ha hm =>
    obtain ⟨cs, state, rfl⟩ := align_keeps terminals ha
    dsimp only [RxReturn.notice?]
    rw [hd, notice_of_code hm]
    rfl
  | emptied _ hd ha hm =>
    obtain ⟨cs, state, rfl⟩ := align_keeps terminals ha
    dsimp only [RxReturn.notice?]
    rw [hd, notice_of_code hm]
    rfl
  | refused _ hd ha =>
    obtain ⟨cs, state, rfl⟩ := align_keeps terminals ha
    dsimp only [RxReturn.notice?]
    rw [hd, conditionsOf_met, conditionsOf_nil, noticesOf_singleton, notice_report]
    simp [noticesOf]
  | delivered _ hd _ ha hc hm hg =>
    obtain ⟨cs, state, rfl⟩ := align_keeps terminals ha
    obtain ⟨cs', rfl⟩ := consume_keeps terminals hc
    have hn := hg.notices hd r.rate
    dsimp only [RxReturn.notice?] at hn ⊢
    rw [notice_of_code]
    · rw [hd, hn, conditionsOf_handed]
      rfl
    · exact hg.code.trans hm

/-- A timeout is never kept. -/
theorem deferred_ne_timeout (h : Receives terminals r buffers count wait md s es y)
    (hd : ∀ c ∈ r.deferred, c.code ≠ .timeout) : ∀ c ∈ y.receiver.deferred, c.code ≠ .timeout := by
  cases h with
  | misuse => exact hd
  | told => simp
  | unseen _ _ ha | seen _ _ ha | emptied _ _ ha | refused _ _ ha =>
    obtain ⟨cs, state, rfl⟩ := align_keeps terminals ha
    exact hd
  | delivered _ _ _ ha hc _ hg =>
    obtain ⟨cs, state, rfl⟩ := align_keeps terminals ha
    obtain ⟨cs', rfl⟩ := consume_keeps terminals hc
    exact hg.deferred_ne_timeout hd

/-- A call reports a condition or returns samples. -/
theorem code_of_pos (h : Receives terminals r buffers count wait md s es y) {n : Nat} (hy : y.outcome = .ok n)
    (hn : 0 < n) : y.metadata.code = .none := by
  cases h with
  | misuse => cases hy
  | told | unseen | seen | emptied | refused =>
    cases hy
    exact absurd hn (Nat.lt_irrefl 0)
  | delivered _ _ _ _ _ hm hg => exact hg.code.trans hm

/-- A poll never reports a timeout. -/
theorem code_of_poll (h : Receives terminals r buffers count wait md s es y)
    (hd : ∀ c ∈ r.deferred, c.code ≠ .timeout) (hc : count = 0) {n : Nat} (hy : y.outcome = .ok n) :
    y.metadata.code ≠ .timeout := by
  cases h with
  | misuse => cases hy
  | told he =>
    rw [code_report]
    exact hd _ he
  | @unseen c _ _ _ _ ha =>
    dsimp only
    split
    · simp [RxMetadata.reset]
    · next hk => rwa [code_report]
  | seen _ _ _ hm | emptied _ _ _ hm =>
    rw [hm]
    simp
  | refused hp | delivered hp => exact absurd hp (by omega)

end Receives

end Calls

/-! ## Runs -/

namespace RxSession

variable {S σ : Type} [HostSample S] (terminals : Nat → Terminal σ)

/-- The conditions that the calls of a run meet. -/
def met (x : RxSession S σ) (as : List (RxAction S σ)) : List Condition := (x.calls terminals as).flatMap (·.met)

/-- What the calls of a run report. -/
def notices (x : RxSession S σ) (as : List (RxAction S σ)) : List Notice :=
  (x.calls terminals as).filterMap (·.returned.notice?)

/-- The condition that the next call is to report. -/
def kept? (x : RxSession S σ) : Option Condition := x.receiver.deferred

/-- No timeout is kept. -/
def Patient (x : RxSession S σ) : Prop := ∀ c ∈ x.kept?, c.code ≠ .timeout

theorem step_notices (x : RxSession S σ) (a : RxAction S σ) :
    (x.step terminals a).receiver.rate = x.receiver.rate ∧
      (x.Patient → (x.step terminals a).Patient) ∧
      (x.call? terminals a).toList.filterMap (·.returned.notice?) ++
          noticesOf x.receiver.rate (x.step terminals a).kept?.toList =
        noticesOf x.receiver.rate x.kept?.toList ++
          noticesOf x.receiver.rate ((x.call? terminals a).toList.flatMap (·.met)) := by
  cases h : x.call? terminals a with
  | none =>
    obtain ⟨state, hs⟩ := receiver_of_no_call terminals h
    have hk : (x.step terminals a).kept? = x.kept? := by rw [kept?, kept?, hs]
    refine ⟨by rw [hs], fun hp => ?_, ?_⟩
    · rw [Patient, hk]
      exact hp
    · rw [hk]
      simp [noticesOf]
  | some c =>
    cases a with
    | issue | elapse => cases h
    | recv buffers count wait onePacket md =>
      have hC := recv_receives terminals x.receiver buffers count wait onePacket md x.surroundings
      refine ⟨hC.format_eq.2, hC.deferred_ne_timeout, ?_⟩
      have hn := hC.notices
      cases h
      rw [Option.toList_some, List.flatMap_singleton, List.filterMap_cons, List.filterMap_nil]
      refine Eq.trans ?_ hn
      cases RxReturn.notice? _ <;> rfl

/-- What the calls of a run report, with what is kept after it, is what was kept before
it and what they met. -/
theorem run_notices (x : RxSession S σ) (as : List (RxAction S σ)) :
    x.notices terminals as ++ noticesOf x.receiver.rate (x.run terminals as).kept?.toList =
      noticesOf x.receiver.rate x.kept?.toList ++ noticesOf x.receiver.rate (x.met terminals as) := by
  induction as generalizing x with
  | nil => simp [notices, met, calls, run, noticesOf]
  | cons a as ih =>
    obtain ⟨hr, -, hs⟩ := step_notices terminals x a
    have h := ih (x.step terminals a)
    rw [hr] at h
    have hrun : x.run terminals (a :: as) = (x.step terminals a).run terminals as := rfl
    simp only [notices, met, calls, List.filterMap_append, List.flatMap_append, noticesOf_append, hrun] at h hs ⊢
    rw [List.append_assoc, h, ← List.append_assoc, hs, List.append_assoc]

end RxSession

/-- Whatever comes in on the links and whatever calls are made: the errors that calls
report, with the one that may still be kept, are the conditions met that are errors, in
their order. What the frames bring of conditions is met, in the order of the frames. A
call that returns samples reports none, and a poll never reports a timeout. -/
theorem conditions_reported_once {S σ : Type} [HostSample S] (terminals : Nat → Terminal σ) {sizes : List Nat}
    {format : WireFormat} {rate : Float} {packetSamples : Nat} {r : Receiver}
    (hr : Receiver.new sizes format rate packetSamples = .ok r) (s : σ) (as : List (RxAction S σ)) :
    let x : RxSession S σ := ⟨r, s, []⟩
    (x.run terminals as).returns = (x.calls terminals as).map (·.returned) ∧
      x.notices terminals as ++ noticesOf rate (x.run terminals as).kept?.toList =
        noticesOf rate (x.met terminals as) ∧
      (x.met terminals as).filter Condition.brought = conditionsIn format (x.arrivals terminals as) ∧
      ∀ c ∈ x.calls terminals as, ∀ n, c.returned.outcome = .ok n →
        (0 < n → c.returned.metadata.code = .none) ∧ (c.asked = 0 → c.returned.metadata.code ≠ .timeout) := by
  intro x
  obtain ⟨-, rfl⟩ := Receiver.eq_of_new hr
  have hx : x.Patient := by simp [x, RxSession.Patient, RxSession.kept?]
  refine ⟨RxSession.returns_run terminals x as, RxSession.run_notices terminals x as, ?_, ?_⟩
  · -- the calls are the same where a journal is kept
    have hn := RxSession.run_noted terminals (x := ⟨x.receiver, ⟨x.surroundings, []⟩, x.returns⟩) as
      (expecting_new sizes)
    have hc := RxSession.calls_shown (fun f (s : Journaled σ) => { s with inner := f s.inner })
      (journaling_shows terminals) (fun _ _ => rfl) ⟨x.receiver, ⟨x.surroundings, []⟩, x.returns⟩ as
    have hk := hn.conditions
    rw [RxSession.met]
    exact (hk.trans (congrArg (fun cs => (cs.flatMap RxCall.met).filter Condition.brought) hc.symm)).symm
  · have hI : ∀ (x : RxSession S σ) a, True → x.Patient → (x.step terminals a).Patient :=
      fun x a _ => (RxSession.step_notices terminals x a).2.1
    refine RxSession.forall_calls terminals hI (fun x a c _ hp hc n hy => ?_) hx as fun _ _ => trivial
    cases a with
    | issue | elapse => cases hc
    | recv buffers count wait onePacket md =>
      have hC := recv_receives terminals x.receiver buffers count wait onePacket md x.surroundings
      cases hc
      exact ⟨hC.code_of_pos hy, fun h0 => hC.code_of_poll hp h0 hy⟩

/-- A report of the device in the middle of a call, a misuse before it is told, a missing
packet and a frame that is none, and at the end a poll and a call that find nothing. -/
theorem conditions_reported_once_kept :
    let packet (sequence : UInt16) (tick : UInt64) (xs : List (Iq Int16)) : Bytes :=
      DataPacket.bytes .sc16 { hasTime := true, sequence, timestamp := tick } xs
    let links := [
      [packet 0 0 [⟨0, 0⟩, ⟨1, 0⟩], (RxCode.encode .overflow (some 2) (List.replicate 20 0)).frame,
        packet 5 2 [⟨2, 0⟩, ⟨3, 0⟩], [1, 2, 3]],
      [packet 9 0 [⟨0, 1⟩, ⟨1, 1⟩], packet 10 2 [⟨2, 1⟩, ⟨3, 1⟩]]]
    let r : Receiver := { channels := [{}, {}], format := .sc16, rate := 1, packetSamples := 8 }
    let x : RxSession (Iq Int16) (List (List Bytes)) := ⟨r, links, []⟩
    let call (n : Nat) : RxAction (Iq Int16) (List (List Bytes)) :=
      .recv [List.replicate 4 ⟨0, 0⟩, List.replicate 4 ⟨0, 0⟩] n 0 false {}
    let as := [call 4, call 5, call 0, call 4, call 0, call 4, call 4, call 0, call 4]
    Receiver.new [64, 64] .sc16 1 8 = .ok r ∧
      x.notices Terminal.scripted as ++
          noticesOf 1 (x.run Terminal.scripted as).kept?.toList =
        noticesOf 1 (x.met Terminal.scripted as) ∧
      x.met Terminal.scripted as = [.status .overflow (some 2), .gap, .malformed, .silence, .silence] ∧
      conditionsIn .sc16 (x.arrivals Terminal.scripted as) = [.status .overflow (some 2), .gap, .malformed] ∧
      (x.calls Terminal.scripted as).map (fun c => (c.returned.outcome.toOption, c.returned.metadata.code)) =
        [(some 2, .none), (none, .none), (some 0, .overflow), (some 0, .overflow), (some 0, .none), (some 2, .none),
          (some 0, .badPacket), (some 0, .none), (some 0, .timeout)] := by
  intro packet links r x call as
  have hr : Receiver.new [64, 64] .sc16 1 8 = .ok r := rfl
  obtain ⟨-, hnotices, harrivals, -⟩ := conditions_reported_once Terminal.scripted hr links as
  have hmet : x.met Terminal.scripted as = [.status .overflow (some 2), .gap, .malformed, .silence, .silence] := by
    decide +kernel
  have hc : conditionsIn .sc16 (x.arrivals Terminal.scripted as) = [.status .overflow (some 2), .gap, .malformed] := by
    rw [← harrivals, hmet]
    rfl
  exact ⟨hr, hnotices, hmet, hc, by decide +kernel⟩

end RadioStream
