import Mathlib.Data.List.Forall2
import RadioStream.Proofs.Lane
import RadioStream.Proofs.Receiver.Track
/-!
# The books of a link

A lane never loses a frame that is sent on it: it has room for all the frames of its
pool. `Lane.Books` counts where they are and what was sent. A receiver that takes
frames and gives them back keeps the books, and `linkLedger` gives it the books of
the links to a transmitter.
-/

namespace RadioStream

/-! ## Accounts of what is sent -/

/-- The account after frames are sent. -/
def Account.post (fs : List Bytes) (a : Account) : Account := { a with sent := a.sent.map (· ++ fs) }

/-- The accounts after each link has sent the frames of its buffer. -/
def Account.postAll {β : Type} (f : β → List Bytes) (as : List Account) (bs : List β) : List Account :=
  List.zipWith (fun a b => a.post (f b)) as bs

/-- The track after frames are sent. -/
def Track.post (fs : List Bytes) (t : Track) : Track := { t with sent := t.sent.map (· ++ fs) }

def Track.postAll {β : Type} (f : β → List Bytes) (ts : List Track) (bs : List β) : List Track :=
  List.zipWith (fun t b => t.post (f b)) ts bs

namespace Track

variable {β : Type} {f : β → List Bytes} {ts : List Track} {bs : List β}

/-- What sending does not change of a track. -/
theorem map_postAll {γ : Type} (g : Track → γ) (hg : ∀ fs t, g (post fs t) = g t) (hl : bs.length = ts.length) :
    (postAll f ts bs).map g = ts.map g := by
  induction ts generalizing bs with
  | nil => rfl
  | cons t ts ih =>
    obtain ⟨b, bs, rfl⟩ := List.exists_cons_of_length_eq_add_one hl
    rw [postAll, List.zipWith_cons_cons, List.map_cons, List.map_cons, hg, ← postAll, ih (Nat.succ.inj hl)]

theorem length_postAll (hl : bs.length = ts.length) : (postAll f ts bs).length = ts.length := by
  rw [postAll, List.length_zipWith, hl, Nat.min_self]

theorem postAll_ne_nil (hl : bs.length = ts.length) (hne : ts ≠ []) : postAll f ts bs ≠ [] := by
  rw [← List.length_pos_iff, length_postAll hl]
  exact List.length_pos_iff.2 hne

theorem account_postAll (ts : List Track) (bs : List β) :
    (postAll f ts bs).map (·.account) = Account.postAll f (ts.map (·.account)) bs := by
  rw [postAll, List.map_zipWith, Account.postAll, List.zipWith_map_left]
  rfl

theorem postAll_get {i : Nat} {t' : Track} (h : (postAll f ts bs)[i]? = some t') :
    ∃ t b, ts[i]? = some t ∧ bs[i]? = some b ∧ t' = t.post (f b) := by
  rw [postAll, List.getElem?_zipWith] at h
  split at h
  · next t b ht hb => cases h; exact ⟨t, b, ht, hb, rfl⟩
  · cases h

theorem mem_postAll {t' : Track} (h : t' ∈ postAll f ts bs) : ∃ t ∈ ts, ∃ b ∈ bs, t' = t.post (f b) := by
  obtain ⟨i, hi⟩ := List.mem_iff_getElem?.1 h
  obtain ⟨t, b, ht, hb, he⟩ := postAll_get hi
  exact ⟨t, List.mem_of_getElem? ht, b, List.mem_of_getElem? hb, he⟩

theorem Sound.post {format : WireFormat} {t : Track} (h : t.Sound format) (fs : List Bytes) :
    (t.post fs).Sound format := ⟨h.expected, h.held⟩

end Track

/-! ## One lane -/

/-- What was sent on a lane has been taken or waits. The frames that are idle, wait,
are out or in hand fit into the lane, and each has room for some bytes. -/
structure Lane.Books (room inHand : Nat) (a : Account) (l : Lane) : Prop where
  sent : a.sent = some (a.taken ++ l.waiting.items.map Frame.payload)
  conserved :
    l.home.idle.items.length + l.waiting.items.length + a.out.toList.length + inHand ≤ l.waiting.capacity
  roomy : ∀ f ∈ l.home.idle.items ++ l.waiting.items ++ a.out.toList, room ≤ f.window.length

namespace Lane.Books

variable {room k : Nat} {a : Account} {l l' : Lane} {f : Frame}

theorem stocked (h : l.Books room k a) : l.Stocked room k a.out.toList := ⟨h.conserved, h.roomy⟩

theorem of_stocked (hs : a.sent = some (a.taken ++ l.pending)) (h : l.Stocked room k a.out.toList) :
    l.Books room k a := ⟨hs, h.conserved, h.roomy⟩

theorem receive_some (h : l.Books room k a) (ho : a.out = none) (hr : l.receive = (some f, l')) :
    a.Admits f.payload ∧ l'.Books room k (a.receive f) := by
  have hs := h.sent
  have hst := h.stocked
  rw [(Lane.receive_some hr).1, List.map_cons] at hs
  rw [ho] at hst
  refine ⟨fun fs hfs => ?_, .of_stocked ?_ (hst.receive hr)⟩
  · rw [hs] at hfs
    cases hfs
    exact ⟨l'.pending, by simp [Lane.pending]⟩
  · rw [Account.receive, hs]
    simp [Lane.pending]

theorem receive_none (h : l.Books room k a) (hr : l.receive = (none, l')) : a.Spent ∧ l' = l := by
  obtain ⟨hi, rfl⟩ := Lane.receive_none hr
  refine ⟨fun fs hfs => ?_, rfl⟩
  rw [h.sent, hi] at hfs
  cases hfs
  simp

/-- The frame that is out is in hand when it is let go. -/
theorem settle (h : l.Books room k a) (ho : a.out = some f) :
    room ≤ f.window.length ∧ l.Books room (k + 1) a.settle := by
  have hst := h.stocked
  rw [ho] at hst
  obtain ⟨hf, hst'⟩ := Lane.Stocked.give (show l.Stocked room k ([] ++ f :: []) from hst)
  exact ⟨hf, .of_stocked h.sent hst'⟩

/-- A frame in hand goes home. -/
theorem recycle (h : l.Books room (k + 1) a) (hf : room ≤ f.window.length) : (l.recycle f).Books room k a :=
  .of_stocked h.sent (h.stocked.recycle hf)

/-- The books of a new lane. -/
theorem of_new {frameSize frames : Nat} (h : Lane.new frameSize frames = .ok l) (hroom : room ≤ l.home.frameSize) :
    l.Books room 0 { sent := some [] } :=
  .of_stocked (by rw [Lane.pending_of_new h]; rfl) (Lane.Stocked.of_new h hroom)

end Lane.Books

/-! ## One link among several -/

/-- An end of the links of a streamer. -/
def Terminal.atEnd (e : End) (i : Nat) : Terminal (List Link) := within i (.ofEnd e)

namespace Terminal

variable {τ : Type} (t : Terminal τ) (before after : List τ) (x : τ)

theorem receive_within (wait : Nat) :
    (within before.length t).receive wait (before ++ x :: after) =
      ((t.receive wait x).1, before ++ (t.receive wait x).2 :: after) := by
  simp [within]

theorem acquire_within (wait : Nat) :
    (within before.length t).acquire wait (before ++ x :: after) =
      ((t.acquire wait x).1, before ++ (t.acquire wait x).2 :: after) := by
  simp [within]

theorem recycle_within (f : Frame) :
    (within before.length t).recycle f (before ++ x :: after) = before ++ t.recycle f x :: after := by
  simp [within, List.modify_eq_take_cons_drop]

theorem submit_within (f : Frame) :
    (within before.length t).submit f (before ++ x :: after) = before ++ t.submit f x :: after := by
  simp [within, List.modify_eq_take_cons_drop]

theorem backlog_within : (within before.length t).backlog (before ++ x :: after) = t.backlog x := by
  simp [within]

end Terminal

namespace Geometry

/-- The number of frames on their way to an end. -/
def framesTo (g : Geometry) : End → Nat
  | .host => g.recvFrames
  | .device => g.sendFrames

/-- The size of the frames on their way to an end. -/
def sizeTo (g : Geometry) : End → Nat
  | .host => g.recvFrameSize
  | .device => g.sendFrameSize

end Geometry

namespace Link

@[simp] theorem inbound_withInbound (l : Link) (e : End) (lane : Lane) : (l.withInbound e lane).inbound e = lane := by
  cases e <;> rfl

theorem outbound_other (l : Link) (e : End) : l.outbound e.other = l.inbound e := by
  cases e <;> rfl

/-- Both lanes of a new link are new. -/
theorem lane_of_new {g : Geometry} {l : Link} (h : Link.new g = .ok l) (e : End) :
    Lane.new (g.sizeTo e) (g.framesTo e) = .ok (l.inbound e) := by
  unfold Link.new at h
  cases hd : Lane.new g.sendFrameSize g.sendFrames with
  | error err => rw [hd] at h; cases h
  | ok toDevice =>
    cases hh : Lane.new g.recvFrameSize g.recvFrames with
    | error err => rw [hd, hh] at h; cases h
    | ok toHost =>
      rw [hd, hh] at h
      cases h
      cases e
      · exact hh
      · exact hd

theorem isOpen_of_new {g : Geometry} {l : Link} (h : Link.new g = .ok l) : l.closed = false := by
  unfold Link.new at h
  cases hd : Lane.new g.sendFrameSize g.sendFrames with
  | error err => rw [hd] at h; cases h
  | ok toDevice =>
    cases hh : Lane.new g.recvFrameSize g.recvFrames with
    | error err => rw [hd, hh] at h; cases h
    | ok toHost =>
      rw [hd, hh] at h
      cases h
      rfl

/-- The books of a new link. -/
theorem books_of_new {g : Geometry} {l : Link} {e : End} {room : Nat} (h : Link.new g = .ok l)
    (hroom : room ≤ (l.geometry e.other).sendFrameSize) : (l.inbound e).Books room 0 { sent := some [] } := by
  refine .of_new (lane_of_new h e) ?_
  cases e <;> exact hroom

theorem inbound_withOutbound (l : Link) (e : End) (lane : Lane) :
    (l.withOutbound e.other lane).inbound e = lane := by
  cases e <;> rfl

end Link

/-- The books of links on the lanes towards an end. -/
def Ledgered (e : End) (room inHand : Nat) : List Account → List Link → Prop :=
  List.Forall₂ fun a l => (l.inbound e).Books room inHand a

namespace Ledgered

variable {e : End} {room k : Nat} {before after : List Account} {a : Account} {ls : List Link}

/-- The link of an account among several. -/
theorem exists_link (h : Ledgered e room k (before ++ a :: after) ls) :
    ∃ b l c, ls = b ++ l :: c ∧ b.length = before.length ∧ (l.inbound e).Books room k a ∧
      ∀ {l' a'}, (Link.inbound l' e).Books room k a' → Ledgered e room k (before ++ a' :: after) (b ++ l' :: c) := by
  induction before generalizing ls with
  | nil =>
    cases h with
    | cons h₁ h₂ => exact ⟨[], _, _, rfl, rfl, h₁, fun h => .cons h h₂⟩
  | cons x before ih =>
    cases h with
    | cons h₁ h₂ =>
      obtain ⟨b, l, c, rfl, hl, hb, hput⟩ := ih h₂
      exact ⟨_ :: b, l, c, rfl, by simp [hl], hb, fun h => .cons h₁ (hput h)⟩

end Ledgered

/-- The ledger of a receiver on one end of several links. -/
def linkLedger (e : End) (room : Nat) : Ledger (Terminal.atEnd e) where
  Tells := Ledgered e room 0
  receive_some := by
    intro before after a wait s s' f hT ho hr
    obtain ⟨b, l, c, rfl, hl, hb, hput⟩ := hT.exists_link
    rw [← hl, Terminal.atEnd, Terminal.receive_within] at hr
    cases hr' : (l.inbound e).receive with
    | mk g lane =>
      have hlink : Terminal.receive (.ofEnd e) wait l = (g, l.withInbound e lane) := by
        simp [Terminal.ofEnd, Link.receive, hr']
      rw [hlink] at hr
      cases hr
      obtain ⟨ha, hb'⟩ := hb.receive_some ho hr'
      exact ⟨ha, hput (by rwa [Link.inbound_withInbound])⟩
  receive_none := by
    intro before after a wait s s' hT hr
    obtain ⟨b, l, c, rfl, hl, hb, hput⟩ := hT.exists_link
    rw [← hl, Terminal.atEnd, Terminal.receive_within] at hr
    cases hr' : (l.inbound e).receive with
    | mk g lane =>
      have hlink : Terminal.receive (.ofEnd e) wait l = (g, l.withInbound e lane) := by
        simp [Terminal.ofEnd, Link.receive, hr']
      rw [hlink] at hr
      cases hr
      obtain ⟨ha, rfl⟩ := hb.receive_none hr'
      exact ⟨ha, hput (by rwa [Link.inbound_withInbound])⟩
  recycle := by
    intro before after a s f hT ho
    obtain ⟨b, l, c, rfl, hl, hb, hput⟩ := hT.exists_link
    rw [← hl, Terminal.atEnd, Terminal.recycle_within]
    obtain ⟨hf, hb'⟩ := hb.settle ho
    refine hput ?_
    rw [show Terminal.recycle (.ofEnd e) f l = l.withInbound e ((l.inbound e).recycle f) from rfl,
      Link.inbound_withInbound]
    exact hb'.recycle hf
  backlog := by
    intro before after a s hT fs hfs
    obtain ⟨b, l, c, rfl, hl, hb, -⟩ := hT.exists_link
    rw [← hl, Terminal.atEnd, Terminal.backlog_within]
    rw [hb.sent] at hfs
    cases hfs
    rw [List.length_append, List.length_map]
    exact le_rfl

end RadioStream
