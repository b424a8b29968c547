import Mathlib.Data.List.Perm.Subperm
import RadioStream.Link.Bench
import RadioStream.Proofs.Link
/-!
# Frames in custody

Whoever uses a link takes frames from it, holds them under names, writes to them and
gives them up in any order. A frame of a direction is then in one of four places: at
home, in a buffer to be sent, on its way, or in a buffer that was received.

`Lane.Placed` says so for one lane and a list of slots that are held, with one lemma for
each operation. `Bench.Keeps` says so for both lanes and all that a bench holds; a frame
that changes hands between two operations stands in its `hand`.
-/

namespace RadioStream

/-! ## One lane -/

/-- Each frame of a lane is at home, on its way or held, and there is room for all of
them at home and on the way. -/
structure Lane.Placed (frames : Nat) (held : List Nat) (l : Lane) : Prop where
  everywhere :
    (l.home.idle.items.map Frame.slot ++ l.waiting.items.map Frame.slot ++ held).Perm (List.range frames)
  home : l.home.idle.capacity = frames
  way : l.waiting.capacity = frames

namespace Lane.Placed

variable {frames : Nat} {held held' : List Nat} {l l' : Lane} {f : Frame}

theorem congr (h : l.Placed frames held) (hp : held'.Perm held) : l.Placed frames held' :=
  ⟨(hp.append_left _).trans h.everywhere, h.home, h.way⟩

theorem length_add (h : l.Placed frames held) :
    l.home.idle.items.length + l.waiting.items.length + held.length = frames := by
  simpa [Nat.add_assoc] using h.everywhere.length_eq

/-- Where a frame is held there is room for it at home. -/
theorem home_room (h : l.Placed frames (f.slot :: held)) (g : Frame) :
    ∃ q, l.home.idle.push? g = some q := by
  have hl := h.length_add
  rw [← Option.ne_none_iff_exists', ne_eq, Queue.push?_eq_none_iff, h.home]
  simp only [List.length_cons] at hl
  omega

/-- Where a frame is held there is room for it on the way. -/
theorem way_room (h : l.Placed frames (f.slot :: held)) (g : Frame) : ∃ q, l.waiting.push? g = some q := by
  have hl := h.length_add
  rw [← Option.ne_none_iff_exists', ne_eq, Queue.push?_eq_none_iff, h.way]
  simp only [List.length_cons] at hl
  omega

theorem acquire (h : l.Placed frames held) (hr : l.acquire = (some f, l')) :
    l'.Placed frames (f.slot :: held) := by
  unfold Lane.acquire Pool.acquire at hr
  rcases ht : l.home.idle.take with ⟨g, q⟩
  rw [ht] at hr
  cases hr
  obtain ⟨hi, hc⟩ := Queue.take_eq_some ht
  refine ⟨List.Perm.trans ?_ h.everywhere, hc.trans h.home, h.way⟩
  rw [hi, List.map_cons, List.cons_append, List.cons_append]
  exact List.perm_middle

theorem receive (h : l.Placed frames held) (hr : l.receive = (some f, l')) :
    l'.Placed frames (f.slot :: held) := by
  obtain ⟨hi, hc, hh⟩ := Lane.receive_some hr
  refine ⟨List.Perm.trans ?_ h.everywhere, hh ▸ h.home, hc.trans h.way⟩
  rw [hi, hh, List.map_cons, List.append_assoc, List.append_assoc]
  exact List.perm_middle.append_left _

/-- A frame that is held goes home. -/
theorem recycle (h : l.Placed frames (f.slot :: held)) :
    (l.recycle f).home.idle.items = l.home.idle.items ++ [{ f with used := 0 }] ∧
      (l.recycle f).waiting = l.waiting ∧ (l.recycle f).Placed frames held := by
  obtain ⟨q, hq⟩ := h.home_room { f with used := 0 }
  have hi : (l.recycle f).home.idle = q := by simp [Lane.recycle, Pool.release, hq]
  refine ⟨hi ▸ Queue.items_push? hq, rfl, List.Perm.trans ?_ h.everywhere, ?_, h.way⟩
  · rw [hi, Queue.items_push? hq, List.map_append, List.map_singleton, List.append_assoc, List.append_assoc,
      List.append_assoc, List.singleton_append]
    exact List.perm_middle.symm.append_left _
  · rw [hi, Queue.capacity_push? hq, h.home]

/-- A frame that is held and holds something is sent, and is not refused. -/
theorem submit (h : l.Placed frames (f.slot :: held)) (hu : f.used ≠ 0) :
    (l.submit f).waiting.items = l.waiting.items ++ [f] ∧ (l.submit f).home = l.home ∧
      (l.submit f).Placed frames held := by
  obtain ⟨q, hq⟩ := h.way_room f
  have hs : l.submit f = { l with waiting := q } := by simp [Lane.submit, hu, hq]
  rw [hs]
  refine ⟨Queue.items_push? hq, rfl, List.Perm.trans ?_ h.everywhere, h.home, ?_⟩
  · simp only [Queue.items_push? hq, List.map_append, List.append_assoc, List.map_cons, List.map_nil,
      List.singleton_append]
    exact List.Perm.refl _
  · rw [← h.way]
    exact Queue.capacity_push? hq

theorem submit_empty (hu : f.used = 0) : l.submit f = l.recycle f := by
  rw [Lane.submit, if_pos hu]

theorem of_new {size : Nat} (h : Lane.new size frames = .ok l) : l.Placed frames [] := by
  obtain ⟨home, hp, rfl⟩ := Lane.exists_pool h
  unfold Pool.new at hp
  split at hp
  · cases hp
  · next hne =>
    cases hp
    have hf : max frames 1 = frames := by omega
    refine ⟨?_, hf, hf⟩
    simp [Queue.new, Function.comp_def, Pool.blankFrame]

end Lane.Placed

namespace Link

theorem inbound_withInbound_of_ne {l : Link} {e e' : End} {lane : Lane} (h : e' ≠ e) :
    (l.withInbound e lane).inbound e' = l.inbound e' := by
  cases e <;> cases e' <;> first | rfl | exact absurd rfl h

end Link

/-! ## Buffers -/

namespace Loan

/-- The buffer to be sent from an end that is held. -/
def sending? (e : End) : Loan → Option SendBuffer
  | send b (.outbound e') => if e' = e then some b else none
  | _ => none

/-- The frame received at an end that is held. -/
def received? (e : End) : Loan → Option Frame
  | receive f (.inbound e') => if e' = e then some f else none
  | _ => none

/-- The slot of a frame that is held on its way to an end. -/
def slots (e : End) (x : Loan) : List Nat :=
  (x.sending? e.other).toList.map (·.frame.slot) ++ (x.received? e).toList.map Frame.slot

/-- What is sent from an end when the buffer is given up: the committed bytes, if there
are any. -/
def posted (e : End) (x : Loan) : List Bytes :=
  match x.sending? e with
  | some b => if b.committed = true ∧ b.frame.used ≠ 0 then [b.frame.payload] else []
  | none => []

theorem slots_send (s : SendBuffer) (e e' : End) :
    (send s (.outbound e.other)).slots e' = if e' = e then [s.frame.slot] else [] := by
  cases e <;> cases e' <;> rfl

theorem slots_receive (f : Frame) (e e' : End) :
    (receive f (.inbound e)).slots e' = if e' = e then [f.slot] else [] := by
  cases e <;> cases e' <;> rfl

theorem received_receive (f : Frame) (e e' : End) :
    (receive f (.inbound e)).received? e' = if e = e' then some f else none := rfl

theorem posted_send (s : SendBuffer) (e e' : End) :
    (send s (.outbound e.other)).posted e'.other =
      if e' = e then (if s.committed = true ∧ s.frame.used ≠ 0 then [s.frame.payload] else []) else [] := by
  cases e <;> cases e' <;> rfl

/-- A loan is a buffer to be sent or one that was received. -/
inductive OfLink : Loan → Prop where
  | send (b : SendBuffer) (e : End) : OfLink (.send b (.outbound e))
  | receive (f : Frame) (e : End) : OfLink (.receive f (.inbound e))

theorem OfLink.write {x : Loan} (h : x.OfLink) (position : Nat) (bs : Bytes) :
    (x.write position bs).OfLink ∧ ∀ e, (x.write position bs).slots e = x.slots e ∧
      (x.write position bs).received? e = x.received? e := by
  cases h with
  | send b e =>
    refine ⟨.send _ _, fun e' => ⟨?_, rfl⟩⟩
    by_cases he : e = e'.other <;> simp [Loan.write, slots, sending?, received?, Frame.write, he]
  | receive f e => exact ⟨.receive f e, fun _ => ⟨rfl, rfl⟩⟩

theorem OfLink.commit {x : Loan} (h : x.OfLink) (n : Nat) :
    (x.commit n).OfLink ∧ ∀ e, (x.commit n).slots e = x.slots e ∧ (x.commit n).received? e = x.received? e := by
  cases h with
  | send b e =>
    refine ⟨.send _ _, fun e' => ⟨?_, rfl⟩⟩
    by_cases he : e = e'.other <;>
      simp [Loan.commit, slots, sending?, received?, SendBuffer.commit, Frame.withUsed, he]
  | receive f e => exact ⟨.receive f e, fun _ => ⟨rfl, rfl⟩⟩

end Loan

theorem SendBuffer.release_slot (b : SendBuffer) : b.release.slot = b.frame.slot := by
  unfold SendBuffer.release
  split <;> rfl

theorem SendBuffer.release_blank (b : SendBuffer) :
    { b.release with used := 0 } = { b.frame with used := 0 } := by
  unfold SendBuffer.release
  split <;> rfl

/-- A buffer that was not committed, or to nothing, is given up empty. -/
theorem SendBuffer.used_release_eq_zero {b : SendBuffer} (h : b.committed = false ∨ b.frame.used = 0) :
    b.release.used = 0 := by
  unfold SendBuffer.release
  split
  · next hc => simpa [hc] using h
  · exact Nat.zero_min _

/-- A buffer that was committed is given up as it is. -/
theorem SendBuffer.release_committed {b : SendBuffer} (h : b.committed = true) : b.release = b.frame := by
  rw [SendBuffer.release, if_pos h]

namespace Lane.Placed

variable {frames : Nat} {held : List Nat} {l : Lane} {s : SendBuffer}

/-- What was committed is sent. -/
theorem give_committed (h : l.Placed frames (s.frame.slot :: held)) (hc : s.committed = true) (hu : s.frame.used ≠ 0) :
    (l.submit s.release).waiting.items = l.waiting.items ++ [s.frame] ∧
      (l.submit s.release).home = l.home ∧ (l.submit s.release).Placed frames held := by
  rw [SendBuffer.release_committed hc]
  exact h.submit hu

/-- A buffer without committed bytes goes home. -/
theorem give_empty (h : l.Placed frames (s.frame.slot :: held)) (hs : s.committed = false ∨ s.frame.used = 0) :
    (l.submit s.release).home.idle.items = l.home.idle.items ++ [{ s.frame with used := 0 }] ∧
      (l.submit s.release).waiting = l.waiting ∧ (l.submit s.release).Placed frames held := by
  rw [submit_empty (SendBuffer.used_release_eq_zero hs)]
  rw [← s.release_slot] at h
  obtain ⟨hi, hw, hp⟩ := h.recycle
  refine ⟨?_, hw, hp⟩
  rw [hi, s.release_blank]

theorem give (h : l.Placed frames (s.frame.slot :: held)) : (l.submit s.release).Placed frames held := by
  by_cases hs : s.committed = true ∧ s.frame.used ≠ 0
  · exact (h.give_committed hs.1 hs.2).2.2
  · refine (h.give_empty ?_).2.2
    rw [not_and_or, not_not, Bool.not_eq_true] at hs
    exact hs

theorem pending_give (h : l.Placed frames (s.frame.slot :: held)) :
    (l.submit s.release).pending =
      l.pending ++ if s.committed = true ∧ s.frame.used ≠ 0 then [s.frame.payload] else [] := by
  by_cases hs : s.committed = true ∧ s.frame.used ≠ 0
  · rw [if_pos hs, Lane.pending, (h.give_committed hs.1 hs.2).1, List.map_append]
    rfl
  · rw [if_neg hs, List.append_nil, Lane.pending, (h.give_empty ?_).2.1, Lane.pending]
    rw [not_and_or, not_not, Bool.not_eq_true] at hs
    exact hs

end Lane.Placed

namespace Bench

/-- The buffers to be sent from an end. -/
def sending (b : Bench) (e : End) : List SendBuffer := b.loans.filterMap (·.2.sending? e)

/-- The frames received at an end and not let go. -/
def receiving (b : Bench) (e : End) : List Frame := b.loans.filterMap (·.2.received? e)

/-- The slots of the frames that are held on their way to an end. -/
def slots (b : Bench) (e : End) : List Nat := b.loans.flatMap (·.2.slots e)

theorem slots_perm (b : Bench) (e : End) :
    (b.slots e).Perm ((b.sending e.other).map (·.frame.slot) ++ (b.receiving e).map Frame.slot) := by
  unfold slots sending receiving
  induction b.loans with
  | nil => exact List.Perm.refl _
  | cons p loans ih =>
    have hs : (p :: loans).filterMap (·.2.sending? e.other) =
        (p.2.sending? e.other).toList ++ loans.filterMap (·.2.sending? e.other) := by
      cases h : p.2.sending? e.other <;> simp [h]
    have hr : (p :: loans).filterMap (·.2.received? e) =
        (p.2.received? e).toList ++ loans.filterMap (·.2.received? e) := by
      cases h : p.2.received? e <;> simp [h]
    rw [hs, hr, List.flatMap_cons, Loan.slots, List.map_append, List.map_append]
    refine (ih.append_left _).trans ?_
    simp only [List.append_assoc]
    refine List.Perm.append_left _ ?_
    exact List.perm_append_comm_assoc _ _ _

theorem receiving_cons (b : Bench) (name : String) (x : Loan) (e : End) :
    (receiving { b with loans := (name, x) :: b.loans } e).Perm ((x.received? e).toList ++ b.receiving e) := by
  unfold receiving
  rw [List.filterMap_cons]
  cases x.received? e <;> exact List.Perm.refl _

/-! ## Names -/

variable {b : Bench} {name : String} {x : Loan}

theorem without_of_none (h : b.loan? name = none) : b.without name = b := by
  have hf : b.loans.filter (·.1 != name) = b.loans := by
    rw [List.filter_eq_self]
    intro p hp
    have := List.lookup_eq_none_iff.1 h p hp
    simpa [bne, BEq.comm] using this
  rw [without, hf]

theorem not_mem_without (b : Bench) (name : String) : name ∉ (b.without name).loans.map Prod.fst := by
  simp [without]

theorem loans_perm (hn : (b.loans.map Prod.fst).Nodup) (h : b.loan? name = some x) :
    b.loans.Perm ((name, x) :: (b.without name).loans) := by
  unfold loan? at h
  show b.loans.Perm ((name, x) :: b.loans.filter (·.1 != name))
  induction hl : b.loans generalizing b with
  | nil => simp [hl] at h
  | cons p loans ih =>
    rw [hl] at h hn
    obtain ⟨hp, hn'⟩ := List.nodup_cons.1 hn
    rw [List.lookup_cons] at h
    by_cases he : name = p.1
    · subst he
      simp only [beq_self_eq_true] at h
      cases h
      have hf : (p :: loans).filter (·.1 != p.1) = loans := by
        rw [List.filter_cons_of_neg (by simp), List.filter_eq_self]
        rintro q hq
        have : q.1 ≠ p.1 := fun hqp => hp (hqp ▸ List.mem_map_of_mem hq)
        simpa using this
      rw [hf]
    · have hb : (name == p.1) = false := by simpa using he
      rw [hb] at h
      rw [List.filter_cons_of_pos (by simpa using fun h => he h.symm)]
      have := ih (b := { b with loans }) hn' h rfl
      exact (this.cons p).trans (List.Perm.swap _ _ _)

theorem receiving_without (hn : (b.loans.map Prod.fst).Nodup) (h : b.loan? name = some x) (e : End) :
    (b.receiving e).Perm ((x.received? e).toList ++ (b.without name).receiving e) :=
  ((loans_perm hn h).filterMap _).trans (receiving_cons (b.without name) name x e)

theorem loan?_without (b : Bench) (name : String) : (b.without name).loan? name = none := by
  rw [loan?, List.lookup_eq_none_iff]
  intro p hp
  simpa [bne, BEq.comm] using (List.mem_filter.1 hp).2

/-! ## What is held and what is not -/

/-- All that is held was taken from the link, and the frames that are not held are where
the link keeps them. The frames of `hand` are between two places. -/
structure Keeps (frames : End → Nat) (hand : End → List Nat) (l : Link) (b : Bench) : Prop where
  link : b.link = some l
  names : (b.loans.map Prod.fst).Nodup
  ofLink : ∀ p ∈ b.loans, p.2.OfLink
  placed : ∀ e, (l.inbound e).Placed (frames e) (hand e ++ b.slots e)

namespace Keeps

variable {frames : End → Nat} {hand hand' : End → List Nat} {l : Link}

theorem ofLink_of_loan? (h : b.Keeps frames hand l) (hx : b.loan? name = some x) : x.OfLink :=
  h.ofLink (name, x) ((loans_perm h.names hx).symm.subset List.mem_cons_self)

theorem congr (h : b.Keeps frames hand l) (hp : ∀ e, (hand' e).Perm (hand e)) : b.Keeps frames hand' l :=
  ⟨h.link, h.names, h.ofLink, fun e => (h.placed e).congr ((hp e).append_right _)⟩

/-- What was held under a name is in the hand. -/
theorem without (h : b.Keeps frames hand l) (hx : b.loan? name = some x) :
    (b.without name).Keeps frames (fun e => x.slots e ++ hand e) l where
  link := h.link
  names := h.names.sublist (List.filter_sublist.map _)
  ofLink p hp := h.ofLink p (List.mem_of_mem_filter hp)
  placed e := by
    refine (h.placed e).congr ?_
    have hs : (b.slots e).Perm (x.slots e ++ (b.without name).slots e) :=
      (loans_perm h.names hx).flatMap_right _
    rw [List.append_assoc]
    exact (List.perm_append_comm_assoc _ _ _).trans (hs.symm.append_left _)

/-- What is in the hand is held under a name. -/
theorem hold (h : b.Keeps frames (fun e => x.slots e ++ hand e) l) (hx : x.OfLink)
    (hn : name ∉ b.loans.map Prod.fst) :
    Keeps frames hand l { b with loans := (name, x) :: b.loans } where
  link := h.link
  names := List.nodup_cons.2 ⟨hn, h.names⟩
  ofLink := List.forall_mem_cons.2 ⟨hx, h.ofLink⟩
  placed e := by
    refine (h.placed e).congr ?_
    rw [List.append_assoc]
    exact List.perm_append_comm_assoc _ _ _

/-- Another lane towards an end, and another hand there. -/
theorem withInbound (h : b.Keeps frames hand l) {e : End} {lane : Lane}
    (hp : lane.Placed (frames e) (hand' e ++ b.slots e)) (hne : ∀ e', e' ≠ e → hand' e' = hand e') :
    Keeps frames hand' (l.withInbound e lane) { b with link := some (l.withInbound e lane) } where
  link := rfl
  names := h.names
  ofLink := h.ofLink
  placed e' := by
    by_cases he : e' = e
    · subst he
      rw [Link.inbound_withInbound]
      exact hp
    · rw [Link.inbound_withInbound_of_ne he, hne e' he]
      exact h.placed e'

/-! ## Giving up -/

/-- A buffer to be sent is given up. -/
theorem give_send (s : SendBuffer) (e : End)
    (h : b.Keeps frames (fun e' => (Loan.send s (.outbound e.other)).slots e' ++ hand e') l) :
    (b.drop (.send s (.outbound e.other))).Keeps frames hand (l.withInbound e ((l.inbound e).submit s.release)) := by
  have hd : b.drop (.send s (.outbound e.other)) =
      { b with link := some (l.withInbound e ((l.inbound e).submit s.release)) } := by
    simp only [drop, giveTo, h.link, Option.map_some]
    cases e <;> rfl
  have hp := h.placed e
  rw [Loan.slots_send, if_pos rfl] at hp
  rw [hd]
  exact h.withInbound (Lane.Placed.give hp) fun e' he => by rw [Loan.slots_send, if_neg he, List.nil_append]

/-- A buffer that was received is given up. -/
theorem give_receive (f : Frame) (e : End)
    (h : b.Keeps frames (fun e' => (Loan.receive f (.inbound e)).slots e' ++ hand e') l) :
    (b.drop (.receive f (.inbound e))).Keeps frames hand (l.withInbound e ((l.inbound e).recycle f)) := by
  have hd : b.drop (.receive f (.inbound e)) = { b with link := some (l.withInbound e ((l.inbound e).recycle f)) } := by
    simp only [drop, giveTo, h.link, Option.map_some]
    rfl
  have hp := h.placed e
  rw [Loan.slots_receive, if_pos rfl] at hp
  rw [hd]
  exact h.withInbound (Lane.Placed.recycle hp).2.2 fun e' he => by
    rw [Loan.slots_receive, if_neg he, List.nil_append]

theorem loans_drop (b : Bench) (x : Loan) : (b.drop x).loans = b.loans := by
  rcases x with _ | ⟨_, _ | _ | _⟩ | ⟨_, _ | _ | _⟩ <;> rfl

/-- Whatever is given up, what it sends waits behind what was sent before. -/
theorem give (h : b.Keeps frames (fun e => x.slots e ++ hand e) l) (hx : x.OfLink) :
    ∃ l', (b.drop x).Keeps frames hand l' ∧
      ∀ e, (l'.inbound e).pending = (l.inbound e).pending ++ x.posted e.other := by
  cases hx with
  | send s e₀ =>
    obtain ⟨e, rfl⟩ : ∃ e : End, e₀ = e.other := ⟨e₀.other, by cases e₀ <;> rfl⟩
    refine ⟨_, h.give_send s e, fun e' => ?_⟩
    have hp := h.placed e
    rw [Loan.slots_send, if_pos rfl] at hp
    rw [Loan.posted_send]
    by_cases he : e' = e
    · subst he
      rw [Link.inbound_withInbound, Lane.Placed.pending_give hp, if_pos rfl]
    · rw [Link.inbound_withInbound_of_ne he, if_neg he, List.append_nil]
  | receive f e =>
    refine ⟨_, h.give_receive f e, fun e' => ?_⟩
    have hp : (Loan.receive f (.inbound e)).posted e'.other = [] := rfl
    rw [hp, List.append_nil]
    by_cases he : e' = e
    · subst he
      rw [Link.inbound_withInbound, Lane.pending_recycle]
    · rw [Link.inbound_withInbound_of_ne he]

/-- Something is held in the place of what was there. -/
theorem put (h : b.Keeps frames (fun e => x.slots e ++ hand e) l) (hx : x.OfLink) (name : String) :
    ∃ l', (b.put name x).Keeps frames hand l' ∧
      (∀ e, (l'.inbound e).pending =
        (l.inbound e).pending ++ (b.loan? name).elim [] (·.posted e.other)) ∧
      ∀ e, ((b.put name x).receiving e).Subperm ((x.received? e).toList ++ b.receiving e) := by
  unfold Bench.put
  cases ho : b.loan? name with
  | none =>
    refine ⟨l, ?_, fun e => (List.append_nil _).symm, fun e => ?_⟩
    · have hn := b.not_mem_without name
      rw [without_of_none ho] at hn ⊢
      exact h.hold hx hn
    · rw [without_of_none ho]
      exact (receiving_cons b name x e).subperm
  | some old =>
    -- the old loan is in the hand until the new one stands in its place
    have hw := h.without ho
    have hh : Keeps frames (fun e => old.slots e ++ hand e) l
        { b.without name with loans := (name, x) :: (b.without name).loans } := by
      refine Keeps.hold (hw.congr fun e => ?_) hx (b.not_mem_without name)
      exact List.perm_append_comm_assoc _ _ _
    obtain ⟨l', hk, hp⟩ := hh.give (h.ofLink_of_loan? ho)
    refine ⟨l', hk, hp, fun e => ?_⟩
    show (((_ : Bench).drop old).receiving e).Subperm _
    rw [receiving, loans_drop]
    refine (receiving_cons (b.without name) name x e).subperm.trans ?_
    exact ((List.filter_sublist.filterMap _).append_left _).subperm

end Keeps

end Bench

end RadioStream
