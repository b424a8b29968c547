import RadioStream.Proofs.Receiver.Session
/-!
# What calls go through

A receive call returns samples and at most one condition. On the way it may hand out
samples in several steps and meet a condition that it does not report, so what it went
through is told beside it: `Receiver.recvEvents` lists what a call meets and what it
hands out, in order.

`Receives` is what a call may do, one constructor for each way it goes, and
`recv_receives` says that the receiver does nothing else.
-/

namespace RadioStream

/-- Samples that a step of a call handed out. -/
structure Handout where
  /-- Header of the packet of the first channel. -/
  header : Header
  count : Nat
  /-- Samples that the packet of each channel has left. -/
  left : List Nat
deriving DecidableEq

/-- What a call goes through. -/
inductive RxEvent where
  /-- The channels could not be aligned. -/
  | met (c : Condition)
  | handed (h : Handout)

/-- The handout of a portion from the packets that a receiver held. -/
def Portion.handout (p : Portion) (r : Receiver) : Handout where
  header := p.header
  count := p.count
  left := (r.channels.filterMap (·.held)).map fun h => h.remaining - p.count

def RxEvent.condition? : RxEvent → Option Condition
  | met c => some c
  | handed _ => none

def RxEvent.handout? : RxEvent → Option Handout
  | met _ => none
  | handed h => some h

/-- The conditions among some events. -/
def conditionsOf (es : List RxEvent) : List Condition := es.filterMap RxEvent.condition?

/-- The handouts among some events. -/
def handoutsOf (es : List RxEvent) : List Handout := es.filterMap RxEvent.handout?

@[simp] theorem conditionsOf_nil : conditionsOf [] = [] := rfl

@[simp] theorem handoutsOf_nil : handoutsOf [] = [] := rfl

@[simp] theorem conditionsOf_met (c : Condition) (es : List RxEvent) :
    conditionsOf (.met c :: es) = c :: conditionsOf es := rfl

@[simp] theorem conditionsOf_handed (h : Handout) (es : List RxEvent) :
    conditionsOf (.handed h :: es) = conditionsOf es := rfl

@[simp] theorem handoutsOf_met (c : Condition) (es : List RxEvent) : handoutsOf (.met c :: es) = handoutsOf es := rfl

@[simp] theorem handoutsOf_handed (h : Handout) (es : List RxEvent) :
    handoutsOf (.handed h :: es) = h :: handoutsOf es := rfl

namespace Receiver

variable {σ S : Type} [HostSample S] (terminals : Nat → Terminal σ)

/-- What a call goes through after a portion. -/
def gatherEvents (wait count : Nat) : Nat → Portion → Nat → Receiver → List (List S) → σ → List RxEvent
  | 0, _, _, _, _, _ => []
  | fuel + 1, last, total, r, buffers, s =>
    if last.exhausted && !last.header.endOfBurst && total < count then
      match r.align terminals wait s with
      | (some condition, _, _) => [.met condition]
      | (none, r, s) =>
        if r.leading?.any Held.startsBurst then []
        else
          let (next, r', buffers, s) := r.consume terminals total (count - total) buffers s
          .handed (next.handout r) :: gatherEvents wait count fuel next (total + next.count) r' buffers s
    else []

omit [HostSample S] in
/-- What a call for no samples goes through. -/
def pollEvents (wait : Nat) (r : Receiver) (s : σ) : List RxEvent :=
  (r.align terminals wait s).1.toList.map .met

/-- What a call for samples goes through. -/
def deliverEvents (r : Receiver) (buffers : List (List S)) (count wait : Nat) (onePacket : Bool) (s : σ) :
    List RxEvent :=
  match r.align terminals wait s with
  | (some condition, _, _) => [.met condition]
  | (none, r, s) =>
    let (first, r', buffers, s) := r.consume terminals 0 count buffers s
    let fuel := if onePacket then 0 else r'.patience terminals count s
    .handed (first.handout r) :: gatherEvents terminals wait count fuel first first.count r' buffers s

/-- What a receive call goes through. -/
def recvEvents (r : Receiver) (buffers : List (List S)) (count wait : Nat) (onePacket : Bool) (s : σ) :
    List RxEvent :=
  if buffers.length ≠ r.channels.length then []
  else match buffers.find? (·.length < count) with
    | some _ => []
    | none => match r.deferred with
      | some _ => []
      | none =>
        if count = 0 then r.pollEvents terminals wait s
        else r.deliverEvents terminals buffers count wait onePacket s

end Receiver

/-! ## What a call may do -/

/-- How far a call has come. -/
structure Stage (S σ : Type) where
  last : Portion
  total : Nat
  receiver : Receiver
  buffers : List (List S)
  metadata : RxMetadata
  surroundings : σ

/-- Whether the call may go on with further packets. -/
def Stage.Wants {S σ : Type} (count : Nat) (g : Stage S σ) : Prop :=
  (g.last.exhausted && !g.last.header.endOfBurst && g.total < count) = true

section Relations

variable {σ S : Type} [HostSample S] (terminals : Nat → Terminal σ)

/-- How a call goes on after a portion. -/
inductive Gathers (wait count : Nat) : Nat → Stage S σ → List RxEvent → Stage S σ → Prop
  | stop {fuel : Nat} {g : Stage S σ} : (fuel = 0 ∨ ¬g.Wants count) → Gathers wait count fuel g [] g
  | refused {fuel : Nat} {g : Stage S σ} {c : Condition} {r : Receiver} {s : σ} : g.Wants count →
      g.receiver.align terminals wait g.surroundings = (some c, r, s) →
      Gathers wait count (fuel + 1) g [.met c]
        { g with
          receiver := if c.code = .timeout then r else { r with deferred := some c }
          surroundings := s }
  | burst {fuel : Nat} {g : Stage S σ} {r : Receiver} {s : σ} : g.Wants count →
      g.receiver.align terminals wait g.surroundings = (none, r, s) →
      Gathers wait count (fuel + 1) g [] { g with receiver := r, surroundings := s }
  | more {fuel : Nat} {g g' : Stage S σ} {r r' : Receiver} {p : Portion} {buffers : List (List S)} {s s' : σ}
      {es : List RxEvent} : g.Wants count →
      g.receiver.align terminals wait g.surroundings = (none, r, s) →
      r.consume terminals g.total (count - g.total) g.buffers s = (p, r', buffers, s') →
      Gathers wait count fuel
        ⟨p, g.total + p.count, r', buffers, Receiver.noteVector p (g.total + p.count) g.metadata, s'⟩ es g' →
      Gathers wait count (fuel + 1) g (.handed (p.handout r) :: es) g'

/-- What a receive call does. -/
inductive Receives (r : Receiver) (buffers : List (List S)) (count wait : Nat) (md : RxMetadata) (s : σ) :
    List RxEvent → Received S σ → Prop
  | misuse {e : Error} : Receives r buffers count wait md s [] ⟨.error e, buffers, md, r, s⟩
  | told {c : Condition} : r.deferred = some c →
      Receives r buffers count wait md s []
        ⟨.ok 0, buffers, c.report r.rate md.reset, { r with deferred := none }, s⟩
  | unseen {c : Condition} {r' : Receiver} {s' : σ} : count = 0 → r.deferred = none →
      r.align terminals wait s = (some c, r', s') →
      Receives r buffers count wait md s [.met c]
        ⟨.ok 0, buffers, if c.code = .timeout then md.reset else c.report r'.rate md.reset, r', s'⟩
  | seen {md' : RxMetadata} {r' : Receiver} {s' : σ} : count = 0 → r.deferred = none →
      r.align terminals wait s = (none, r', s') → md'.code = .none →
      Receives r buffers count wait md s [] ⟨.ok 0, buffers, md', r', s'⟩
  | emptied {md' : RxMetadata} {r' : Receiver} {s' : σ} {state : StreamState} {cs : List RxChannel} {s'' : σ} :
      count = 0 → r.deferred = none → r.align terminals wait s = (none, r', s') → md'.code = .none →
      RxChannel.dropWhere terminals (fun _ => true) 0 r'.channels s' = (cs, s'') →
      Receives r buffers count wait md s [] ⟨.ok 0, buffers, md', { r' with channels := cs, state }, s''⟩
  | refused {c : Condition} {r' : Receiver} {s' : σ} : 0 < count → r.deferred = none →
      r.align terminals wait s = (some c, r', s') →
      Receives r buffers count wait md s [.met c] ⟨.ok 0, buffers, c.report r'.rate md.reset, r', s'⟩
  | delivered {r₁ r₂ : Receiver} {s₁ s₂ : σ} {p : Portion} {buffers' : List (List S)} {md' : RxMetadata} {fuel : Nat}
      {es : List RxEvent} {g : Stage S σ} : 0 < count → r.deferred = none →
      buffers.length = r.channels.length → r.align terminals wait s = (none, r₁, s₁) →
      r₁.consume terminals 0 count buffers s₁ = (p, r₂, buffers', s₂) → md'.code = .none →
      Gathers terminals wait count fuel ⟨p, p.count, r₂, buffers', md', s₂⟩ es g →
      Receives r buffers count wait md s (.handed (p.handout r₁) :: es)
        { outcome := .ok g.total, buffers := g.buffers
          metadata :=
            { g.metadata with
              moreFragments := !g.last.exhausted
              endOfBurst := g.last.exhausted && g.last.header.endOfBurst }
          receiver :=
            { g.receiver with
              state := if g.last.exhausted && g.last.header.endOfBurst then .idle else g.receiver.state }
          surroundings := g.surroundings }

@[simp] theorem code_noteVector (p : Portion) (position : Nat) (md : RxMetadata) :
    (Receiver.noteVector p position md).code = md.code := by
  obtain ⟨e, he⟩ := noteVector_eq p position md
  rw [he]

theorem gathers_gather (wait count fuel : Nat) (g : Stage S σ) :
    ∃ g', Receiver.gather terminals wait count fuel g.last g.total g.receiver g.buffers g.metadata g.surroundings =
        (g'.last, g'.total, g'.receiver, g'.buffers, g'.metadata, g'.surroundings) ∧
      Gathers terminals wait count fuel g
        (Receiver.gatherEvents terminals wait count fuel g.last g.total g.receiver g.buffers g.surroundings) g' := by
  induction fuel generalizing g with
  | zero => exact ⟨g, rfl, .stop (.inl rfl)⟩
  | succ fuel ih =>
    unfold Receiver.gather Receiver.gatherEvents
    by_cases h : (g.last.exhausted && !g.last.header.endOfBurst && g.total < count) = true
    · have hw : g.Wants count := h
      rw [if_pos h, if_pos h]
      rcases ha : g.receiver.align terminals wait g.surroundings with ⟨_ | c, r, s⟩
      · dsimp only
        by_cases hb : r.leading?.any Held.startsBurst = true
        · rw [if_pos hb, if_pos hb]
          exact ⟨{ g with receiver := r, surroundings := s }, rfl, .burst hw ha⟩
        · rw [if_neg hb, if_neg hb]
          rcases hc : r.consume terminals g.total (count - g.total) g.buffers s with ⟨p, r', buffers, s'⟩
          obtain ⟨g', he, hg⟩ := ih
            ⟨p, g.total + p.count, r', buffers, Receiver.noteVector p (g.total + p.count) g.metadata, s'⟩
          exact ⟨g', he, .more hw ha hc hg⟩
      · exact ⟨_, rfl, .refused hw ha⟩
    · rw [if_neg h, if_neg h]
      exact ⟨g, rfl, .stop (.inr h)⟩

theorem receives_poll {r : Receiver} (buffers : List (List S)) {count : Nat} (wait : Nat) (md : RxMetadata) (s : σ)
    (hc : count = 0) (hd : r.deferred = none) :
    Receives terminals r buffers count wait md s (r.pollEvents terminals wait s)
      ⟨.ok 0, buffers, (r.poll terminals wait md.reset s).1, (r.poll terminals wait md.reset s).2.1,
        (r.poll terminals wait md.reset s).2.2⟩ := by
  unfold Receiver.poll Receiver.pollEvents
  rcases ha : r.align terminals wait s with ⟨_ | c, r', s'⟩
  · dsimp only
    cases hl : r'.leading? with
    | none => exact .seen hc hd ha rfl
    | some lead =>
      dsimp only
      by_cases hz : lead.remaining = 0
      · rw [if_pos hz]
        exact .emptied hc hd ha rfl rfl
      · rw [if_neg hz]
        exact .seen hc hd ha rfl
  · exact .unseen hc hd ha

theorem receives_deliver {r : Receiver} {buffers : List (List S)} {count : Nat} (wait : Nat) (onePacket : Bool)
    (md : RxMetadata) (s : σ) (hc : 0 < count) (hd : r.deferred = none)
    (hl : buffers.length = r.channels.length) :
    Receives terminals r buffers count wait md s (r.deliverEvents terminals buffers count wait onePacket s)
      (r.deliver terminals buffers count wait onePacket md.reset s) := by
  unfold Receiver.deliver Receiver.deliverEvents
  rcases ha : r.align terminals wait s with ⟨_ | c, r₁, s₁⟩
  · dsimp only
    rcases hp : r₁.consume terminals 0 count buffers s₁ with ⟨p, r₂, buffers', s₂⟩
    dsimp only
    generalize (if onePacket = true then 0 else r₂.patience terminals count s₂) = fuel
    obtain ⟨g, he, hg⟩ := gathers_gather terminals wait count fuel
      ⟨p, p.count, r₂, buffers', Receiver.noteVector p p.count (r₂.describe p.header p.offset md.reset), s₂⟩
    dsimp only at he
    rw [he]
    exact .delivered hc hd hl ha hp (by rw [code_noteVector]; rfl) hg
  · exact .refused hc hd ha

/-- A receive call does one of these, and goes through what its events tell. -/
theorem recv_receives (r : Receiver) (buffers : List (List S)) (count wait : Nat) (onePacket : Bool) (md : RxMetadata)
    (s : σ) :
    Receives terminals r buffers count wait md s (r.recvEvents terminals buffers count wait onePacket s)
      (r.recv terminals buffers count wait onePacket md s) := by
  unfold Receiver.recv Receiver.recvEvents
  by_cases hl : buffers.length ≠ r.channels.length
  · rw [if_pos hl, if_pos hl]
    exact .misuse
  · rw [if_neg hl, if_neg hl]
    cases buffers.find? (·.length < count) with
    | some short => exact .misuse
    | none =>
      dsimp only
      cases hd : r.deferred with
      | some c => exact .told hd
      | none =>
        dsimp only
        by_cases hc : count = 0
        · rw [if_pos hc, if_pos hc]
          exact receives_poll terminals buffers wait md s hc hd
        · rw [if_neg hc, if_neg hc]
          exact receives_deliver terminals wait onePacket md s (Nat.pos_of_ne_zero hc) hd (not_not.1 hl)

/-! ## What operations leave alone -/

omit [HostSample S] in
theorem align_keeps {wait : Nat} {r r' : Receiver} {s s' : σ} {k : Option Condition}
    (h : r.align terminals wait s = (k, r', s')) :
    ∃ cs state, r' = { r with channels := cs, state } := by
  cases h
  exact ⟨_, _, rfl⟩

theorem consume_keeps {position most : Nat} {r r' : Receiver} {buffers buffers' : List (List S)} {s s' : σ}
    {p : Portion} (h : r.consume terminals position most buffers s = (p, r', buffers', s')) :
    ∃ cs, r' = { r with channels := cs } := by
  unfold Receiver.consume at h
  cases hl : r.leading? with
  | none =>
    rw [hl] at h
    cases h
    exact ⟨_, rfl⟩
  | some lead =>
    rw [hl] at h
    cases h
    exact ⟨_, rfl⟩

variable {terminals}

theorem Gathers.format_eq {wait count fuel : Nat} {g g' : Stage S σ} {es : List RxEvent}
    (h : Gathers terminals wait count fuel g es g') :
    g'.receiver.format = g.receiver.format ∧ g'.receiver.rate = g.receiver.rate := by
  induction h with
  | stop => exact ⟨rfl, rfl⟩
  | refused _ ha =>
    obtain ⟨cs, state, rfl⟩ := align_keeps terminals ha
    dsimp only
    split <;> exact ⟨rfl, rfl⟩
  | burst _ ha =>
    obtain ⟨cs, state, rfl⟩ := align_keeps terminals ha
    exact ⟨rfl, rfl⟩
  | more _ ha hc _ ih =>
    obtain ⟨cs, state, rfl⟩ := align_keeps terminals ha
    obtain ⟨cs', rfl⟩ := consume_keeps terminals hc
    exact ih

/-- A call changes neither the format nor the rate. -/
theorem Receives.format_eq {r : Receiver} {buffers : List (List S)} {count wait : Nat} {md : RxMetadata} {s : σ}
    {es : List RxEvent} {y : Received S σ} (h : Receives terminals r buffers count wait md s es y) :
    y.receiver.format = r.format ∧ y.receiver.rate = r.rate := by
  cases h with
  | misuse | told => exact ⟨rfl, rfl⟩
  | unseen _ _ ha | seen _ _ ha | emptied _ _ ha | refused _ _ ha =>
    obtain ⟨cs, state, rfl⟩ := align_keeps terminals ha
    exact ⟨rfl, rfl⟩
  | delivered _ _ _ ha hc _ hg =>
    obtain ⟨cs, state, rfl⟩ := align_keeps terminals ha
    obtain ⟨cs', rfl⟩ := consume_keeps terminals hc
    exact hg.format_eq

end Relations

/-! ## The calls of a session -/

/-- A receive call of a session. -/
structure RxCall (S : Type) where
  /-- The samples asked for. -/
  asked : Nat
  /-- What the call went through. -/
  events : List RxEvent
  returned : RxReturn S
  /-- The state of the stream after the call. -/
  state : StreamState

namespace RxCall

variable {S : Type}

/-- The conditions that a call met. -/
def met (c : RxCall S) : List Condition := conditionsOf c.events

/-- The samples that a call handed out, step by step. -/
def handouts (c : RxCall S) : List Handout := handoutsOf c.events

end RxCall

namespace RxSession

variable {S σ : Type} [HostSample S] (terminals : Nat → Terminal σ)

/-- The call that an action is, if it is one. -/
def call? (x : RxSession S σ) : RxAction S σ → Option (RxCall S)
  | .recv buffers count wait onePacket md =>
    let y := x.receiver.recv terminals buffers count wait onePacket md x.surroundings
    some
      { asked := count
        events := x.receiver.recvEvents terminals buffers count wait onePacket x.surroundings
        returned := ⟨y.outcome, y.buffers, y.metadata⟩
        state := y.receiver.state }
  | .issue _ => none
  | .elapse _ => none

/-- The calls of a run. -/
def calls : RxSession S σ → List (RxAction S σ) → List (RxCall S)
  | _, [] => []
  | x, a :: as => (x.call? terminals a).toList ++ calls (x.step terminals a) as

/-- What a run returns is what its calls return. -/
theorem returns_run (x : RxSession S σ) (as : List (RxAction S σ)) :
    (x.run terminals as).returns = x.returns ++ (x.calls terminals as).map (·.returned) := by
  induction as generalizing x with
  | nil => simp [run, calls]
  | cons a as ih =>
    have hs : (x.step terminals a).returns = x.returns ++ (x.call? terminals a).toList.map (·.returned) := by
      cases a with
      | recv => rfl
      | issue | elapse => simp [step, call?]
    rw [calls, List.map_append, ← List.append_assoc, ← hs]
    exact ih _

/-- An action that is no call changes no more of the receiver than its state. -/
theorem receiver_of_no_call {x : RxSession S σ} {a : RxAction S σ} (h : x.call? terminals a = none) :
    ∃ state, (x.step terminals a).receiver = { x.receiver with state } := by
  cases a with
  | recv => cases h
  | issue c =>
    obtain ⟨res, st, s', hr, -⟩ := issueFrom_keeps terminals (f := fun _ => ()) (fun _ _ _ => rfl) (fun _ _ _ => rfl)
      c x.receiver.channels.length 0 x.receiver x.surroundings
    refine ⟨st, ?_⟩
    rw [step, Receiver.issue, hr]
  | elapse => exact ⟨x.receiver.state, rfl⟩

/-- What holds of each call made in a state that actions keep, holds of all calls of a
run. -/
theorem forall_calls {I : RxSession S σ → Prop} {A : RxAction S σ → Prop} {P : RxCall S → Prop}
    (hI : ∀ x a, A a → I x → I (x.step terminals a))
    (hP : ∀ x a c, A a → I x → x.call? terminals a = some c → P c) {x : RxSession S σ} (hx : I x)
    (as : List (RxAction S σ)) (ha : ∀ a ∈ as, A a) : ∀ c ∈ x.calls terminals as, P c := by
  induction as generalizing x with
  | nil => simp [calls]
  | cons a as ih =>
    intro c hc
    obtain ⟨ha, has⟩ := List.forall_mem_cons.1 ha
    rw [calls, List.mem_append, Option.mem_toList] at hc
    rcases hc with hc | hc
    · exact hP x a c ha hx hc
    · exact ih (hI x a ha hx) has c hc

end RxSession

/-! ## Surroundings that hold more -/

section Shown

variable {σ τ S : Type} [HostSample S] {view : τ → σ} {terminals' : Nat → Terminal τ} {terminals : Nat → Terminal σ}

theorem gatherEvents_shown (h : ∀ i, (terminals' i).Shows view (terminals i)) (wait count fuel : Nat) (last : Portion)
    (total : Nat) (r : Receiver) (buffers : List (List S)) (s : τ) :
    Receiver.gatherEvents terminals wait count fuel last total r buffers (view s) =
      Receiver.gatherEvents terminals' wait count fuel last total r buffers s := by
  induction fuel generalizing last total r buffers s with
  | zero => rfl
  | succ fuel ih =>
    unfold Receiver.gatherEvents
    rw [align_shown h]
    rcases r.align terminals' wait s with ⟨_ | c, r', s'⟩
    · dsimp only [Prod.map, id]
      rw [consume_shown h]
      dsimp only [Prod.map, id]
      rw [ih]
    · rfl

theorem recvEvents_shown (h : ∀ i, (terminals' i).Shows view (terminals i)) (r : Receiver) (buffers : List (List S))
    (count wait : Nat) (onePacket : Bool) (s : τ) :
    r.recvEvents terminals buffers count wait onePacket (view s) =
      r.recvEvents terminals' buffers count wait onePacket s := by
  have hd : r.deliverEvents terminals buffers count wait onePacket (view s) =
      r.deliverEvents terminals' buffers count wait onePacket s := by
    unfold Receiver.deliverEvents
    rw [align_shown h]
    rcases r.align terminals' wait s with ⟨_ | c, r', s'⟩
    · dsimp only [Prod.map, id]
      rw [consume_shown h]
      dsimp only [Prod.map, id]
      rw [patience_shown h, gatherEvents_shown h]
    · rfl
  have hp : r.pollEvents terminals wait (view s) = r.pollEvents terminals' wait s := by
    unfold Receiver.pollEvents
    rw [align_shown h]
    rfl
  unfold Receiver.recvEvents
  rw [hd, hp]

/-- The calls of a run are the same. -/
theorem RxSession.calls_shown (lift : (σ → σ) → τ → τ) (h : ∀ i, (terminals' i).Shows view (terminals i))
    (hl : ∀ f s, view (lift f s) = f (view s)) (x : RxSession S τ) (as : List (RxAction S σ)) :
    (x.shown view).calls terminals as = x.calls terminals' (as.map (RxAction.lifted lift)) := by
  induction as generalizing x with
  | nil => rfl
  | cons a as ih =>
    have hc : (x.shown view).call? terminals a = x.call? terminals' (a.lifted lift) := by
      cases a with
      | recv buffers count wait onePacket md =>
        simp only [call?, shown, RxAction.lifted, recv_shown h, recvEvents_shown h]
        rfl
      | issue | elapse => rfl
    rw [List.map_cons, calls, calls, hc, ← shown_step h hl, ih]

end Shown

end RadioStream
