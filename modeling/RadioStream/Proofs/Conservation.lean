import RadioStream.Proofs.Custody
/-!
# Conservation on a link

Any sequence of operations on the two ends of a link and on the buffers that they hand
out: a `Custody` is a bench with what each end has sent and what each end was handed. At
every moment each frame is in one place, and what was sent is what was handed out and what
waits, in order.
-/

namespace RadioStream

/-! ## Operations -/

/-- What is done with a link and its buffers. -/
inductive BufferAction where
  /-- An end takes an idle frame and holds it under a name. -/
  | acquire (e : End) (name : String)
  /-- An end takes a frame that waits and holds it under a name. -/
  | receive (e : End) (name : String)
  | write (name : String) (position : Nat) (bs : Bytes)
  | commit (name : String) (n : Nat)
  /-- What is held under a name is given up. -/
  | release (name : String)
  /-- An end is given up. -/
  | close

namespace Bench

def act (b : Bench) : BufferAction → Bench
  | .acquire e name => (b.acquire e name).2
  | .receive e name => (b.receive e name).2
  | .write name position bs => match b.loan? name with
    | some x => b.replace name (x.write position bs)
    | none => b
  | .commit name n => match b.loan? name with
    | some x => b.replace name (x.commit n)
    | none => b
  | .release name => b.release name 0
  | .close => b.closeLink

/-- The loan that an operation gives up: what it releases, or what was under the name
that now holds another frame. -/
def givenUp (b : Bench) : BufferAction → Option Loan
  | .acquire e name => (b.acquire e name).1.bind fun _ => b.loan? name
  | .receive e name => (b.receive e name).1.bind fun _ => b.loan? name
  | .release name => b.loan? name
  | _ => none

/-- The frame that an operation hands to an end that receives. -/
def handedOut (b : Bench) (e : End) : BufferAction → List Frame
  | .receive e' name => ((b.receive e' name).1.bind (·.received? e)).toList
  | _ => []

end Bench

/-- A bench, what each end has sent and what each end was handed. -/
structure Custody where
  bench : Bench
  sent : End → List Bytes := fun _ => []
  handed : End → List Bytes := fun _ => []

namespace Custody

/-- A link that nobody has used. -/
def fresh (l : Link) : Custody := { bench := { pools := [], link := some l } }

def step (s : Custody) (a : BufferAction) : Custody where
  bench := s.bench.act a
  sent e := s.sent e ++ (s.bench.givenUp a).elim [] (·.posted e)
  handed e := s.handed e ++ (s.bench.handedOut e a).map Frame.payload

def run (s : Custody) (as : List BufferAction) : Custody := as.foldl step s

end Custody

/-! ## One operation -/

/-- An operation keeps every frame in one place. What it hands out comes off the front
of what waits, and what it gives up goes to the end. -/
structure Bench.Moved (frames : End → Nat) (l : Link) (b b' : Bench) (given : Option Loan)
    (handed : End → List Frame) (l' : Link) : Prop where
  keeps : b'.Keeps frames (fun _ => []) l'
  pending : ∀ e, (handed e).map Frame.payload ++ (l'.inbound e).pending =
    (l.inbound e).pending ++ given.elim [] (·.posted e.other)
  receiving : ∀ e, (b'.receiving e).Subperm (handed e ++ b.receiving e)

namespace Bench.Keeps

variable {frames : End → Nat} {l : Link} {b : Bench}

theorem unmoved (h : b.Keeps frames (fun _ => []) l) : Moved frames l b b none (fun _ => []) l where
  keeps := h
  pending _ := (List.append_nil _).symm
  receiving _ := List.Subperm.refl _

theorem acquire (h : b.Keeps frames (fun _ => []) l) (e : End) (name : String) :
    ∃ l', Moved frames l b (b.acquire e name).2 ((b.acquire e name).1.bind fun _ => b.loan? name)
      (fun _ => []) l' := by
  obtain ⟨e, rfl⟩ : ∃ e' : End, e = e'.other := ⟨e.other, by cases e <;> rfl⟩
  rcases hr : (l.inbound e).acquire with ⟨f | f, lane⟩
  · have hb : b.acquire e.other name = (none, b) := by
      simp [Bench.acquire, h.link, Link.acquire, Link.outbound_other, hr]
    rw [hb]
    exact ⟨l, h.unmoved⟩
  · have hb : b.acquire e.other name = (some (.send { frame := f } (.outbound e.other)),
        Bench.put { b with link := some (l.withInbound e lane) } name (.send { frame := f } (.outbound e.other))) := by
      simp only [Bench.acquire, h.link, Link.acquire, Link.outbound_other, hr]
      cases e <;> rfl
    rw [hb]
    have hk : Keeps frames (fun e' => (Loan.send { frame := f } (.outbound e.other)).slots e' ++ [])
        (l.withInbound e lane) { b with link := some (l.withInbound e lane) } := by
      refine h.withInbound ?_ fun e' he => by rw [Loan.slots_send, if_neg he, List.append_nil]
      rw [Loan.slots_send, if_pos rfl]
      exact (h.placed e).acquire hr
    obtain ⟨l', hk', hp, hs⟩ := hk.put (.send _ _) name
    refine ⟨l', hk', fun e' => ?_, hs⟩
    rw [List.map_nil, List.nil_append, hp]
    by_cases he : e' = e
    · subst he
      rw [Link.inbound_withInbound, Lane.pending, (Lane.acquire_some hr).2]
      rfl
    · rw [Link.inbound_withInbound_of_ne he]
      rfl

theorem receive (h : b.Keeps frames (fun _ => []) l) (e : End) (name : String) :
    ∃ l', Moved frames l b (b.receive e name).2 ((b.receive e name).1.bind fun _ => b.loan? name)
      (fun e' => ((b.receive e name).1.bind (·.received? e')).toList) l' := by
  rcases hr : (l.inbound e).receive with ⟨f | f, lane⟩
  · have hb : b.receive e name = (none, b) := by
      simp [Bench.receive, h.link, Link.receive, hr]
    rw [hb]
    exact ⟨l, h.unmoved⟩
  · have hb : b.receive e name = (some (.receive f (.inbound e)),
        Bench.put { b with link := some (l.withInbound e lane) } name (.receive f (.inbound e))) := by
      simp [Bench.receive, h.link, Link.receive, hr]
    rw [hb]
    have hk : Keeps frames (fun e' => (Loan.receive f (.inbound e)).slots e' ++ [])
        (l.withInbound e lane) { b with link := some (l.withInbound e lane) } := by
      refine h.withInbound ?_ fun e' he => by rw [Loan.slots_receive, if_neg he, List.append_nil]
      rw [Loan.slots_receive, if_pos rfl]
      exact (h.placed e).receive hr
    obtain ⟨l', hk', hp, hs⟩ := hk.put (.receive _ _) name
    refine ⟨l', hk', fun e' => ?_, hs⟩
    rw [hp]
    by_cases he : e' = e
    · subst he
      have hw := (Lane.receive_some hr).1
      rw [Link.inbound_withInbound, Option.bind_some, Loan.received_receive, if_pos rfl, Lane.pending, Lane.pending, hw]
      rfl
    · rw [Link.inbound_withInbound_of_ne he, Option.bind_some, Loan.received_receive, if_neg (Ne.symm he)]
      rfl

/-- Something takes the place of a loan with the same frame. -/
theorem replace (h : b.Keeps frames (fun _ => []) l) {name : String} {x y : Loan} (hx : b.loan? name = some x)
    (hy : y.OfLink) (hs : ∀ e, y.slots e = x.slots e ∧ y.received? e = x.received? e) :
    Moved frames l b (b.replace name y) none (fun _ => []) l := by
  have hw := h.without hx
  have hr : b.replace name y = { b.without name with loans := (name, y) :: (b.without name).loans } := by
    rw [Bench.replace, Bench.put, loan?_without, without_of_none (loan?_without b name)]
  rw [hr]
  refine ⟨(hw.congr fun e => ?_).hold hy (b.not_mem_without name), fun e => (List.append_nil _).symm, fun e => ?_⟩
  · rw [(hs e).1]
  · refine ((receiving_cons _ name y e).trans ?_).subperm
    rw [(hs e).2]
    exact (receiving_without h.names hx e).symm

theorem release (h : b.Keeps frames (fun _ => []) l) (name : String) :
    ∃ l', Moved frames l b (b.release name 0) (b.loan? name) (fun _ => []) l' := by
  cases hx : b.loan? name with
  | none =>
    rw [Bench.release, hx]
    exact ⟨l, h.unmoved⟩
  | some x =>
    have hl := h.ofLink_of_loan? hx
    have hr : b.release name 0 = (b.without name).drop x := by
      rw [Bench.release, hx]
      cases hl <;> rfl
    rw [hr]
    obtain ⟨l', hk, hp⟩ := (h.without hx).give hl
    refine ⟨l', hk, hp, fun e => ?_⟩
    rw [Bench.receiving, loans_drop]
    exact (List.filter_sublist.filterMap _).subperm

theorem close (h : b.Keeps frames (fun _ => []) l) : Moved frames l b b.closeLink none (fun _ => []) l.close where
  keeps :=
    { link := by rw [closeLink, h.link]; rfl
      names := h.names
      ofLink := h.ofLink
      placed e := by cases e <;> exact h.placed _ }
  pending e := by cases e <;> exact (List.append_nil _).symm
  receiving _ := List.Subperm.refl _

theorem act (h : b.Keeps frames (fun _ => []) l) (a : BufferAction) :
    ∃ l', Moved frames l b (b.act a) (b.givenUp a) (b.handedOut · a) l' := by
  cases a with
  | acquire e name => exact h.acquire e name
  | receive e name => exact h.receive e name
  | write name position bs =>
    cases hx : b.loan? name with
    | none =>
      rw [Bench.act, hx]
      exact ⟨l, h.unmoved⟩
    | some x =>
      rw [Bench.act, hx]
      obtain ⟨hy, hs⟩ := (h.ofLink_of_loan? hx).write position bs
      exact ⟨l, h.replace hx hy hs⟩
  | commit name n =>
    cases hx : b.loan? name with
    | none =>
      rw [Bench.act, hx]
      exact ⟨l, h.unmoved⟩
    | some x =>
      rw [Bench.act, hx]
      obtain ⟨hy, hs⟩ := (h.ofLink_of_loan? hx).commit n
      exact ⟨l, h.replace hx hy hs⟩
  | release name => exact h.release name
  | close => exact ⟨l.close, h.close⟩

end Bench.Keeps

/-! ## Any number of operations -/

namespace Custody

/-- Every frame is in one place, and what was sent was handed out or waits. What is held
of what was handed out is unchanged. -/
structure Kept (frames : End → Nat) (s : Custody) (l : Link) : Prop where
  keeps : s.bench.Keeps frames (fun _ => []) l
  sent : ∀ e, s.sent e.other = s.handed e ++ (l.inbound e).pending
  receiving : ∀ e, ((s.bench.receiving e).map Frame.payload).Subperm (s.handed e)

variable {frames : End → Nat} {s : Custody} {l : Link}

namespace Kept

theorem step (h : s.Kept frames l) (a : BufferAction) : ∃ l', (s.step a).Kept frames l' := by
  obtain ⟨l', hm⟩ := h.keeps.act a
  refine ⟨l', hm.keeps, fun e => ?_, fun e => ?_⟩
  · show s.sent e.other ++ _ = (s.handed e ++ _) ++ _
    rw [h.sent e, List.append_assoc, List.append_assoc, hm.pending e]
  · show List.Subperm _ (s.handed e ++ _)
    obtain ⟨fs, hp, hs⟩ := hm.receiving e
    have hr : ((s.bench.act a).receiving e).map Frame.payload |>.Subperm
        ((s.bench.handedOut e a ++ s.bench.receiving e).map Frame.payload) :=
      ⟨fs.map Frame.payload, hp.map _, hs.map _⟩
    refine hr.trans ?_
    rw [List.map_append]
    exact (List.perm_append_comm.subperm).trans ((List.subperm_append_right _).2 (h.receiving e))

theorem run (h : s.Kept frames l) (as : List BufferAction) : ∃ l', (s.run as).Kept frames l' := by
  induction as generalizing s l with
  | nil => exact ⟨l, h⟩
  | cons a as ih =>
    obtain ⟨l', h'⟩ := h.step a
    exact ih h'

theorem fresh {g : Geometry} (hl : Link.new g = .ok l) : (fresh l).Kept g.framesTo l where
  keeps :=
    { link := rfl
      names := List.nodup_nil
      ofLink := fun _ hp => (List.not_mem_nil hp).elim
      placed := fun e => Lane.Placed.of_new (Link.lane_of_new hl e) }
  sent e := (Lane.pending_of_new (Link.lane_of_new hl e)).symm
  receiving _ := List.Subperm.refl _

end Kept

/-! ## What the user of a link can count on -/

/-- The direction towards an end: where its frames are, and what is delivered. -/
structure Conserved (frames : Nat) (e : End) (s : Custody) (l : Link) : Prop where
  link : s.bench.link = some l
  /-- Each frame is in exactly one of four places. -/
  everywhere :
    ((l.inbound e).home.idle.items.map Frame.slot ++ (s.bench.sending e.other).map (·.frame.slot) ++
      (l.inbound e).waiting.items.map Frame.slot ++ (s.bench.receiving e).map Frame.slot).Perm
      (List.range frames)
  /-- A buffer that is sent finds room on the way. -/
  pushed : ∀ b ∈ s.bench.sending e.other, ((l.inbound e).waiting.push? b.release).isSome
  /-- What was sent was handed out, once and in order, or waits. -/
  delivered : s.sent e.other = s.handed e ++ (l.inbound e).pending
  /-- The buffers that are held hold what was handed out. -/
  unchanged : ((s.bench.receiving e).map Frame.payload).Subperm (s.handed e)
  /-- The next buffer that is handed out is the one sent first of those that were not. -/
  next : ∀ name, (s.bench.handedOut e (.receive e name)).map Frame.payload =
    ((s.sent e.other).drop (s.handed e).length).take 1
  /-- What was committed goes on its way. -/
  sends : ∀ name b, s.bench.loan? name = some (.send b (.outbound e.other)) →
    b.committed = true → b.frame.used ≠ 0 →
    ∃ l', (s.bench.act (.release name)).link = some l' ∧
      (l'.inbound e).waiting.items = (l.inbound e).waiting.items ++ [b.frame] ∧
      (l'.inbound e).home = (l.inbound e).home
  /-- Without committed bytes nothing goes on its way, and the frame is idle again. -/
  frees : ∀ name b, s.bench.loan? name = some (.send b (.outbound e.other)) →
    b.committed = false ∨ b.frame.used = 0 →
    ∃ l', (s.bench.act (.release name)).link = some l' ∧
      (l'.inbound e).waiting = (l.inbound e).waiting ∧
      (l'.inbound e).home.idle.items = (l.inbound e).home.idle.items ++ [{ b.frame with used := 0 }]
  /-- What was received goes home. -/
  returns : ∀ name f, s.bench.loan? name = some (.receive f (.inbound e)) →
    ∃ l', (s.bench.act (.release name)).link = some l' ∧
      (l'.inbound e).waiting = (l.inbound e).waiting ∧
      (l'.inbound e).home.idle.items = (l.inbound e).home.idle.items ++ [{ f with used := 0 }]

namespace Kept

/-- A buffer to be sent is in the hand while it is given up. -/
theorem in_hand (h : s.Kept frames l) {name : String} {b : SendBuffer} {e : End}
    (hx : s.bench.loan? name = some (.send b (.outbound e.other))) :
    (s.bench.act (.release name)).link = some (l.withInbound e ((l.inbound e).submit b.release)) ∧
      (l.inbound e).Placed (frames e) (b.frame.slot :: (s.bench.without name).slots e) := by
  have hw := h.keeps.without hx
  have hp := hw.placed e
  rw [Loan.slots_send, if_pos rfl] at hp
  refine ⟨?_, hp⟩
  rw [Bench.act, Bench.release, hx]
  exact (hw.give_send b e).link

theorem pushed (h : s.Kept frames l) (e : End) :
    ∀ b ∈ s.bench.sending e.other, ((l.inbound e).waiting.push? b.release).isSome := by
  intro b hb
  obtain ⟨p, hp, hs⟩ := List.mem_filterMap.1 hb
  -- the frame of the buffer is held, so not all frames are on the way
  have hslot : b.frame.slot ∈ s.bench.slots e := by
    refine (s.bench.slots_perm e).symm.subset (List.mem_append_left _ ?_)
    exact List.mem_map_of_mem (f := fun b : SendBuffer => b.frame.slot) hb
  obtain ⟨q, hq⟩ := ((h.keeps.placed e).congr (List.perm_cons_erase hslot).symm).way_room b.release
  rw [hq]
  rfl

theorem next (h : s.Kept frames l) (e : End) (name : String) :
    (s.bench.handedOut e (.receive e name)).map Frame.payload =
      ((s.sent e.other).drop (s.handed e).length).take 1 := by
  rw [h.sent e, List.drop_left, Lane.pending]
  rcases hr : (l.inbound e).receive with ⟨f | f, lane⟩
  · rw [(Lane.receive_none hr).1]
    simp [Bench.handedOut, Bench.receive, h.keeps.link, Link.receive, hr]
  · rw [(Lane.receive_some hr).1]
    simp [Bench.handedOut, Bench.receive, h.keeps.link, Link.receive, hr, Loan.received_receive]

theorem conserved (h : s.Kept frames l) (e : End) : s.Conserved (frames e) e l where
  link := h.keeps.link
  everywhere := by
    refine List.Perm.trans ?_ ((h.keeps.placed e).congr (s.bench.slots_perm e).symm).everywhere
    simp only [List.append_assoc]
    exact (List.perm_append_comm_assoc _ _ _).append_left _
  pushed := h.pushed e
  delivered := h.sent e
  unchanged := h.receiving e
  next := h.next e
  sends name b hx hc hu := by
    obtain ⟨hl, hp⟩ := h.in_hand hx
    obtain ⟨hw, hh, -⟩ := hp.give_committed hc hu
    refine ⟨_, hl, ?_⟩
    rw [Link.inbound_withInbound]
    exact ⟨hw, hh⟩
  frees name b hx hs := by
    obtain ⟨hl, hp⟩ := h.in_hand hx
    obtain ⟨hi, hw, -⟩ := hp.give_empty hs
    refine ⟨_, hl, ?_⟩
    rw [Link.inbound_withInbound]
    exact ⟨hw, hi⟩
  returns name f hx := by
    have hk := h.keeps.without hx
    have hp := hk.placed e
    rw [Loan.slots_receive, if_pos rfl] at hp
    refine ⟨l.withInbound e ((l.inbound e).recycle f), ?_, ?_⟩
    · rw [Bench.act, Bench.release, hx]
      exact (hk.give_receive f e).link
    · rw [Link.inbound_withInbound]
      obtain ⟨hi, hw, -⟩ := Lane.Placed.recycle hp
      exact ⟨hw, hi⟩

end Kept

/-- Whatever is done with a link and its buffers, and also when its ends are given up:
in each direction every frame is in one place, no frame that is sent is refused, and
what is sent is delivered once and in order. -/
theorem frames_conserved {g : Geometry} {l : Link} (hl : Link.new g = .ok l) (as : List BufferAction) (e : End) :
    ∃ l', ((fresh l).run as).Conserved (g.framesTo e) e l' := by
  obtain ⟨l', h⟩ := (Kept.fresh hl).run as
  exact ⟨l', h.conserved e⟩

/-- Three bytes of a buffer are committed, its end is given up, and the other end gets
them; a buffer that is not committed brings nothing. -/
theorem frames_conserved_closed :
    ∃ l, Link.new ⟨2, 4, 1, 2⟩ = .ok l ∧
      let s := (fresh l).run
        [.acquire .host "a", .acquire .host "b", .write "a" 0 [97, 98, 99], .commit "a" 3, .release "b",
          .release "a", .close, .receive .device "c", .receive .device "d"]
      (∃ l', s.Conserved 2 .device l') ∧ s.handed .device = [[97, 98, 99]] := by
  refine ⟨_, rfl, frames_conserved (g := ⟨2, 4, 1, 2⟩) rfl _ .device, ?_⟩
  decide +kernel

end Custody

end RadioStream
