import RadioStream.Proofs.Conservation
import RadioStream.Proofs.RoundTrip
/-!
# The size of buffers

The frames of a lane are made in one size and keep it, whatever is done with the link and
its buffers. So what an end can put into the buffers that it is handed is settled when the
link is made: `Link.Takes` says whether a packet fits, and `takes_packet` and
`takes_samples` when it does.
-/

namespace RadioStream

/-! ## Frames of one size -/

/-- The frames that are idle or wait on a lane have windows of one size. -/
def Lane.Sized (n : Nat) (l : Lane) : Prop := ∀ f ∈ l.home.idle.items ++ l.waiting.items, f.window.length = n

namespace Lane.Sized

variable {n : Nat} {l l' : Lane} {f : Frame}

theorem acquire (h : l.Sized n) (hr : l.acquire = (some f, l')) : f.window.length = n ∧ l'.Sized n := by
  obtain ⟨hi, hw⟩ := acquire_some hr
  unfold Sized at h
  rw [hi, List.cons_append, List.forall_mem_cons, ← hw] at h
  exact h

theorem receive (h : l.Sized n) (hr : l.receive = (some f, l')) : f.window.length = n ∧ l'.Sized n := by
  obtain ⟨hi, -, hh⟩ := receive_some hr
  unfold Sized at h ⊢
  rw [hi, List.forall_mem_append, List.forall_mem_cons] at h
  rw [hh, List.forall_mem_append]
  exact ⟨h.2.1, h.1, h.2.2⟩

theorem recycle (h : l.Sized n) (hf : f.window.length = n) : (l.recycle f).Sized n := by
  unfold Sized at h ⊢
  rw [List.forall_mem_append] at h ⊢
  refine ⟨?_, h.2⟩
  show ∀ g ∈ (l.home.release f).idle.items, g.window.length = n
  rcases l.home.items_release f with hi | hi
  · rw [hi]
    exact h.1
  · rw [hi, List.forall_mem_append, List.forall_mem_singleton]
    exact ⟨h.1, hf⟩

theorem submit (h : l.Sized n) (hf : f.window.length = n) : (l.submit f).Sized n := by
  unfold Lane.submit
  split
  · exact h.recycle hf
  · cases hp : l.waiting.push? f with
    | none => exact h.recycle hf
    | some q =>
      unfold Sized at h ⊢
      rw [List.forall_mem_append] at h ⊢
      rw [Queue.items_push? hp, List.forall_mem_append, List.forall_mem_singleton]
      exact ⟨h.1, h.2, hf⟩

theorem of_new {frames : Nat} (h : Lane.new n frames = .ok l) : l.Sized n := by
  obtain ⟨home, hp, rfl⟩ := exists_pool h
  unfold Pool.new at hp
  split at hp
  · cases hp
  · cases hp
    intro f hf
    simp only [Queue.new, List.append_nil, List.mem_map] at hf
    obtain ⟨slot, -, rfl⟩ := hf
    rw [Pool.blankFrame, List.length_replicate]

end Lane.Sized

/-- The frames towards each end have one size. -/
def Link.Sized (sizes : End → Nat) (l : Link) : Prop := ∀ e, (l.inbound e).Sized (sizes e)

theorem Link.Sized.withInbound {sizes : End → Nat} {l : Link} (h : l.Sized sizes) {e : End} {lane : Lane}
    (hl : lane.Sized (sizes e)) : (l.withInbound e lane).Sized sizes := by
  intro e'
  by_cases he : e' = e
  · subst he
    rw [inbound_withInbound]
    exact hl
  · rw [inbound_withInbound_of_ne he]
    exact h e'

/-! ## Buffers of one size -/

/-- A buffer of a link has the size of the frames of its lane. -/
inductive Loan.Sized (sizes : End → Nat) : Loan → Prop where
  | send {b : SendBuffer} {e : End} : b.frame.window.length = sizes e.other → Sized sizes (.send b (.outbound e))
  | receive {f : Frame} {e : End} : f.window.length = sizes e → Sized sizes (.receive f (.inbound e))

theorem Frame.length_write (f : Frame) (position : Nat) (bs : Bytes) :
    (f.write position bs).window.length = f.window.length := by
  simp only [Frame.write, Frame.capacity, splice, List.length_append, List.length_take, List.length_drop]
  omega

theorem SendBuffer.length_release (b : SendBuffer) : b.release.window = b.frame.window := by
  unfold SendBuffer.release
  split <;> rfl

namespace Loan.Sized

variable {sizes : End → Nat} {x : Loan}

theorem write (h : x.Sized sizes) (position : Nat) (bs : Bytes) : (x.write position bs).Sized sizes := by
  cases h with
  | send hb => exact .send ((Frame.length_write _ _ _).trans hb)
  | receive hf => exact .receive hf

theorem commit (h : x.Sized sizes) (n : Nat) : (x.commit n).Sized sizes := by
  cases h with
  | send hb => exact .send hb
  | receive hf => exact .receive hf

end Loan.Sized

/-- The link and what is held of it. -/
structure Bench.Sized (sizes : End → Nat) (b : Bench) : Prop where
  link : ∀ l ∈ b.link, l.Sized sizes
  loans : ∀ p ∈ b.loans, p.2.Sized sizes

namespace Bench.Sized

variable {sizes : End → Nat} {b : Bench} {x : Loan}

theorem loan (h : b.Sized sizes) {name : String} (hx : b.loan? name = some x) : x.Sized sizes := by
  obtain ⟨before, after, hl, -⟩ := List.lookup_eq_some_iff.1 hx
  exact h.loans (name, x) (by rw [hl]; simp)

theorem without (h : b.Sized sizes) (name : String) : (b.without name).Sized sizes :=
  ⟨h.link, fun p hp => h.loans p (List.mem_of_mem_filter hp)⟩

/-- Another link. -/
theorem withLink (h : b.Sized sizes) {f : Link → Link} (hf : ∀ l, l.Sized sizes → (f l).Sized sizes) :
    Sized sizes { b with link := b.link.map f } := by
  refine ⟨fun l hl => ?_, h.loans⟩
  obtain ⟨l', hl', rfl⟩ := Option.map_eq_some_iff.1 hl
  exact hf l' (h.link l' hl')

theorem drop (h : b.Sized sizes) (hx : x.Sized sizes) : (b.drop x).Sized sizes := by
  cases hx with
  | send hb => exact h.withLink fun l hl => hl.withInbound ((hl _).submit (by rw [SendBuffer.length_release, hb]))
  | receive hf => exact h.withLink fun l hl => hl.withInbound ((hl _).recycle hf)

theorem put (h : b.Sized sizes) (hx : x.Sized sizes) (name : String) : (b.put name x).Sized sizes := by
  have hw := h.without name
  have hadd : Sized sizes { b.without name with loans := (name, x) :: (b.without name).loans } :=
    ⟨hw.link, List.forall_mem_cons.2 ⟨hx, hw.loans⟩⟩
  unfold Bench.put
  cases ho : b.loan? name with
  | none => exact hadd
  | some old => exact hadd.drop (h.loan ho)

theorem acquire (h : b.Sized sizes) (e : End) (name : String) : (b.acquire e name).2.Sized sizes := by
  unfold Bench.acquire
  cases hl : b.link with
  | none => exact h
  | some l =>
    have hs := h.link l hl
    have ha : l.acquire e = ((l.inbound e.other).acquire.1, l.withInbound e.other (l.inbound e.other).acquire.2) := rfl
    dsimp only
    rw [ha]
    rcases hr : (l.inbound e.other).acquire with ⟨_ | f, lane⟩
    · exact h
    · obtain ⟨hf, hlane⟩ := (hs e.other).acquire hr
      have hb : Sized sizes { b with link := some (l.withInbound e.other lane) } :=
        ⟨by rintro _ ⟨⟩; exact hs.withInbound hlane, h.loans⟩
      exact hb.put (.send hf) name

theorem receive (h : b.Sized sizes) (e : End) (name : String) : (b.receive e name).2.Sized sizes := by
  unfold Bench.receive
  cases hl : b.link with
  | none => exact h
  | some l =>
    have hs := h.link l hl
    have ha : l.receive e = ((l.inbound e).receive.1, l.withInbound e (l.inbound e).receive.2) := rfl
    dsimp only
    rw [ha]
    rcases hr : (l.inbound e).receive with ⟨_ | f, lane⟩
    · exact h
    · obtain ⟨hf, hlane⟩ := (hs e).receive hr
      have hb : Sized sizes { b with link := some (l.withInbound e lane) } :=
        ⟨by rintro _ ⟨⟩; exact hs.withInbound hlane, h.loans⟩
      exact hb.put (.receive hf) name

theorem act (h : b.Sized sizes) (a : BufferAction) : (b.act a).Sized sizes := by
  cases a with
  | acquire e name => exact h.acquire e name
  | receive e name => exact h.receive e name
  | write name position bs =>
    rw [Bench.act]
    cases hx : b.loan? name with
    | none => exact h
    | some x => exact (h.without name).put ((h.loan hx).write position bs) name
  | commit name n =>
    rw [Bench.act]
    cases hx : b.loan? name with
    | none => exact h
    | some x => exact (h.without name).put ((h.loan hx).commit n) name
  | release name =>
    rw [Bench.act, Bench.release]
    cases hx : b.loan? name with
    | none => exact h
    | some x =>
      have hs := h.loan hx
      have hd := (h.without name).drop hs
      cases hs with
      | send => exact hd
      | receive => exact hd
  | close => exact h.withLink fun l hl e => hl e

end Bench.Sized

/-- Whatever is done with a link, its buffers have the size that they were made with. -/
theorem Custody.sized_run {g : Geometry} {l : Link} (hl : Link.new g = .ok l) (as : List BufferAction) :
    ((fresh l).run as).bench.Sized g.sizeTo := by
  have hfresh : (fresh l).bench.Sized g.sizeTo := by
    refine ⟨?_, by simp [fresh]⟩
    rintro _ ⟨⟩ e
    exact .of_new (Link.lane_of_new hl e)
  unfold run
  induction as using List.reverseRecOn with
  | nil => exact hfresh
  | append_singleton as a ih =>
    rw [List.foldl_append]
    exact ih.act a

/-! ## Packets that fit -/

/-- Whatever was done with a link before, the buffers that an end is handed take a packet
of `n` bytes exactly if it fits. -/
def Link.Takes (l : Link) (e : End) (write : Bytes → Written) (n : Nat) (fits : Prop) : Prop :=
  ∀ as name b, ((Custody.fresh l).run as).bench.loan? name = some (.send b (.outbound e)) →
    ((write b.frame.window).outcome = .ok n ↔ fits)

section Packets

variable {g : Geometry} {l : Link}

/-- What fits is a matter of the size of the frames. -/
theorem Link.takes_of_size (hl : Link.new g = .ok l) (e : End) {write : Bytes → Written} {n : Nat} {fits : Prop}
    (h : ∀ w : Bytes, w.length = g.sizeTo e.other → ((write w).outcome = .ok n ↔ fits)) : l.Takes e write n fits := by
  intro as name b hb
  cases (Custody.sized_run hl as).loan hb with
  | send hw => exact h _ hw

theorem takes_packet (hl : Link.new g = .ok l) (e : End) (h : Header) (payload : Bytes) :
    l.Takes e (h.encodePacket payload) (Header.size + payload.length)
      (Header.size + payload.length ≤ g.sizeTo e.other) := by
  refine Link.takes_of_size hl e fun w hw => ?_
  have hp := h.encodePacket_puts payload w
  have hlen : ((h.sized payload).bytes ++ payload).length = Header.size + payload.length := by
    rw [List.length_append, Header.length_bytes]
  rw [← hw]
  rw [← hlen]
  constructor
  · intro ho
    by_contra hlt
    obtain ⟨err, he⟩ := (hp.refused (Nat.not_le.1 hlt)).1
    rw [he] at ho
    cases ho
  · exact fun hfit => (hp.fits hfit).1

theorem takes_samples {S : Type} [HostSample S] (hl : Link.new g = .ok l) (e : End) (h : Header) (format : WireFormat)
    {xs : List S} (hfit : Header.size + xs.length * format.sampleBytes ≤ g.sizeTo e.other) :
    l.Takes e (h.encodeSamples format xs) (Header.size + xs.length * format.sampleBytes) True := by
  refine Link.takes_of_size hl e fun w hw => ?_
  obtain ⟨w', he, -⟩ := h.encodeSamples_spec format (hw ▸ hfit)
  rw [he]
  exact iff_true_intro rfl

end Packets

end RadioStream
