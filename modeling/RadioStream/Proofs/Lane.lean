import Mathlib.Tactic.Tauto
import RadioStream.Link.Terminal
/-!
# The frames of a lane

A frame of a lane is idle, waits for the other end, is away with the end that received
it, or in the hand of the end that fills it. `Lane.Stocked` counts them: they fit into
the lane, so that a frame that is sent always finds room, and their windows keep their
sizes. Each operation moves one frame.
-/

namespace RadioStream

theorem Pool.items_release (p : Pool) (f : Frame) :
    (p.release f).idle.items = p.idle.items ∨ (p.release f).idle.items = p.idle.items ++ [{ f with used := 0 }] := by
  unfold Pool.release
  cases hp : p.idle.push? { f with used := 0 } with
  | none => exact .inl rfl
  | some q => exact .inr (Queue.items_push? hp)

namespace Lane

/-- The packets that wait on a lane. -/
def pending (l : Lane) : List Bytes := l.waiting.items.map Frame.payload

/-- The frames that are idle, wait, are away or in hand fit into the lane, and each has
room for some bytes. -/
structure Stocked (room inHand : Nat) (away : List Frame) (l : Lane) : Prop where
  conserved : l.home.idle.items.length + l.waiting.items.length + away.length + inHand ≤ l.waiting.capacity
  roomy : ∀ f ∈ l.home.idle.items ++ l.waiting.items ++ away, room ≤ f.window.length

theorem acquire_none {l l' : Lane} (hr : l.acquire = (none, l')) : l.home.idle.items = [] ∧ l' = l := by
  unfold Lane.acquire Pool.acquire at hr
  rcases ht : l.home.idle.take with ⟨g, q⟩
  rw [ht] at hr
  cases hr
  obtain ⟨hi, rfl⟩ := Queue.take_eq_none ht
  exact ⟨hi, rfl⟩

theorem acquire_some {l l' : Lane} {f : Frame} (hr : l.acquire = (some f, l')) :
    l.home.idle.items = f :: l'.home.idle.items ∧ l'.waiting = l.waiting := by
  unfold Lane.acquire Pool.acquire at hr
  rcases ht : l.home.idle.take with ⟨g, q⟩
  rw [ht] at hr
  cases hr
  exact ⟨(Queue.take_eq_some ht).1, rfl⟩

theorem receive_none {l l' : Lane} (hr : l.receive = (none, l')) : l.waiting.items = [] ∧ l' = l := by
  unfold Lane.receive at hr
  rcases ht : l.waiting.take with ⟨g, q⟩
  rw [ht] at hr
  cases hr
  obtain ⟨hi, rfl⟩ := Queue.take_eq_none ht
  exact ⟨hi, rfl⟩

theorem receive_some {l l' : Lane} {f : Frame} (hr : l.receive = (some f, l')) :
    l.waiting.items = f :: l'.waiting.items ∧ l'.waiting.capacity = l.waiting.capacity ∧ l'.home = l.home := by
  unfold Lane.receive at hr
  rcases ht : l.waiting.take with ⟨g, q⟩
  rw [ht] at hr
  cases hr
  obtain ⟨hi, hc⟩ := Queue.take_eq_some ht
  exact ⟨hi, hc, rfl⟩

theorem exists_pool {frameSize frames : Nat} {l : Lane} (h : Lane.new frameSize frames = .ok l) :
    ∃ home, Pool.new frameSize frames = .ok home ∧ l = { home, waiting := Queue.new frames } := by
  unfold Lane.new at h
  cases hp : Pool.new frameSize frames with
  | error err => rw [hp] at h; cases h
  | ok home =>
    rw [hp] at h
    cases h
    exact ⟨home, rfl, rfl⟩

theorem frameSize_of_new {frameSize frames : Nat} {l : Lane} (h : Lane.new frameSize frames = .ok l) :
    l.home.frameSize = frameSize := by
  obtain ⟨home, hp, rfl⟩ := exists_pool h
  unfold Pool.new at hp
  split at hp <;> cases hp
  rfl

theorem pending_of_new {frameSize frames : Nat} {l : Lane} (h : Lane.new frameSize frames = .ok l) :
    l.pending = [] := by
  obtain ⟨home, -, rfl⟩ := exists_pool h
  rfl

@[simp] theorem pending_recycle (l : Lane) (f : Frame) : (l.recycle f).pending = l.pending := rfl

namespace Stocked

variable {room k : Nat} {away : List Frame} {l l' : Lane} {f : Frame}

/-- An idle frame is taken in hand. -/
theorem acquire (h : l.Stocked room k away) (hr : l.acquire = (some f, l')) :
    room ≤ f.window.length ∧ l'.Stocked room (k + 1) away := by
  obtain ⟨hi, hw⟩ := acquire_some hr
  have hc := h.conserved
  have hroom := h.roomy
  rw [hi] at hc hroom
  refine ⟨hroom f (by simp), ?_, fun g hg => hroom g ?_⟩
  · rw [hw]
    simp only [List.length_cons] at hc
    omega
  · rw [hw] at hg
    simp only [List.mem_append, List.mem_cons] at hg ⊢
    tauto

/-- A frame in hand goes home. -/
theorem recycle (h : l.Stocked room (k + 1) away) (hf : room ≤ f.window.length) :
    (l.recycle f).Stocked room k away := by
  have hc := h.conserved
  refine ⟨?_, fun g hg => ?_⟩
  · -- the pool may be full, and then the frame is gone
    have hle : (l.home.release f).idle.items.length ≤ l.home.idle.items.length + 1 := by
      rcases l.home.items_release f with hi | hi <;> simp [hi]
    show (l.home.release f).idle.items.length + l.waiting.items.length + away.length + k ≤ l.waiting.capacity
    omega
  · change g ∈ (l.home.release f).idle.items ++ l.waiting.items ++ away at hg
    have hr := h.roomy
    simp only [List.mem_append] at hg hr
    rcases l.home.items_release f with hi | hi
    · rw [hi] at hg
      exact hr g hg
    · rw [hi, List.mem_append, List.mem_singleton] at hg
      rcases hg with ((hg | rfl) | hg) | hg
      · exact hr g (.inl (.inl hg))
      · exact hf
      · exact hr g (.inl (.inr hg))
      · exact hr g (.inr hg)

/-- A frame in hand that holds something is sent. There is room for all frames of the
pool, so it is not refused. -/
theorem submit (h : l.Stocked room (k + 1) away) (hf : room ≤ f.window.length) (hu : f.used ≠ 0) :
    (l.submit f).waiting.items = l.waiting.items ++ [f] ∧ (l.submit f).home = l.home ∧
      (l.submit f).Stocked room k away := by
  unfold Lane.submit
  rw [if_neg hu]
  have hc := h.conserved
  cases hp : l.waiting.push? f with
  | none =>
    have := Queue.push?_eq_none_iff.1 hp
    omega
  | some q =>
    have hi := Queue.items_push? hp
    have hcap := Queue.capacity_push? hp
    refine ⟨hi, rfl, ?_, fun g hg => ?_⟩
    · simp only [hi, hcap, List.length_append, List.length_singleton]
      omega
    · have hr := h.roomy
      simp only [hi, List.mem_append, List.mem_singleton] at hg hr
      rcases hg with (hg | hg | rfl) | hg
      · exact hr g (.inl (.inl hg))
      · exact hr g (.inl (.inr hg))
      · exact hf
      · exact hr g (.inr hg)

/-- A frame in hand that holds nothing goes home. -/
theorem submit_empty (h : l.Stocked room (k + 1) away) (hf : room ≤ f.window.length) (hu : f.used = 0) :
    (l.submit f).waiting = l.waiting ∧ (l.submit f).Stocked room k away := by
  unfold Lane.submit
  rw [if_pos hu]
  exact ⟨rfl, h.recycle hf⟩

/-- The frame that is received is away. -/
theorem receive (h : l.Stocked room k away) (hr : l.receive = (some f, l')) :
    l'.Stocked room k (away ++ [f]) := by
  obtain ⟨hi, hcap, hhome⟩ := receive_some hr
  have hc := h.conserved
  have hroom := h.roomy
  rw [hi] at hc hroom
  refine ⟨?_, fun g hg => hroom g ?_⟩
  · rw [hhome, hcap, List.length_append]
    simp only [List.length_cons, List.length_nil] at hc ⊢
    omega
  · rw [hhome] at hg
    simp only [List.mem_append, List.mem_cons, List.not_mem_nil, or_false] at hg ⊢
    tauto

/-- A frame that is away is in hand when it is given up. -/
theorem give {before after : List Frame} (h : l.Stocked room k (before ++ f :: after)) :
    room ≤ f.window.length ∧ l.Stocked room (k + 1) (before ++ after) := by
  have hc := h.conserved
  refine ⟨h.roomy f (by simp), ?_, fun g hg => h.roomy g ?_⟩
  · simp only [List.length_append, List.length_cons] at hc ⊢
    omega
  · simp only [List.mem_append, List.mem_cons] at hg ⊢
    tauto

/-- A new lane has all its frames at home. -/
theorem of_new {frameSize frames : Nat} (h : Lane.new frameSize frames = .ok l) (hroom : room ≤ l.home.frameSize) :
    l.Stocked room 0 [] := by
  obtain ⟨home, hp, rfl⟩ := exists_pool h
  unfold Pool.new at hp
  split at hp
  · cases hp
  · cases hp
    refine ⟨?_, fun f hf => ?_⟩
    · simp only [List.length_map, List.length_range, Queue.new, List.length_nil]
      omega
    · simp only [Queue.new, List.append_nil, List.mem_map] at hf
      obtain ⟨slot, -, rfl⟩ := hf
      rw [Pool.blankFrame, List.length_replicate]
      exact hroom

end Stocked

end Lane

/-! ## Writing a packet into a frame -/

namespace Written

/-- What is sent of a frame after a packet was written into it. -/
def packets (w : Written) : List Bytes :=
  match w.outcome with
  | .ok n => [w.frame.take n]
  | .error _ => []

/-- The frame as it is given up then. -/
def release (w : Written) (f : Frame) : Frame :=
  let buffer : SendBuffer := { frame := { f with window := w.frame } }
  match w.outcome with
  | .ok n => (buffer.commit n).release
  | .error _ => buffer.release

theorem release_of_ok {w : Written} {n : Nat} (ho : w.outcome = .ok n) (hn : n ≤ w.frame.length) (f : Frame) :
    w.release f = ⟨f.slot, w.frame, n⟩ := by
  unfold release
  rw [ho]
  simp [SendBuffer.commit, SendBuffer.release, Frame.withUsed, Frame.capacity, Nat.min_eq_left hn]

theorem release_of_error {w : Written} {e : Error} (ho : w.outcome = .error e) (f : Frame) :
    w.release f = ⟨f.slot, w.frame, 0⟩ := by
  unfold release
  rw [ho]
  simp [SendBuffer.release, Frame.withUsed]

@[simp] theorem slot_release (w : Written) (f : Frame) : (w.release f).slot = f.slot := by
  cases ho : w.outcome <;> simp [release, ho, SendBuffer.commit, SendBuffer.release, Frame.withUsed]

@[simp] theorem window_release (w : Written) (f : Frame) : (w.release f).window = w.frame := by
  cases ho : w.outcome <;> simp [release, ho, SendBuffer.commit, SendBuffer.release, Frame.withUsed]

end Written

theorem Terminal.sendIn_eq {σ : Type} (t : Terminal σ) (write : Bytes → Written) (f : Frame) (s : σ) :
    t.sendIn write f s = ((write f.window).outcome, t.submit ((write f.window).release f) s) := by
  unfold Terminal.sendIn Written.release
  cases ho : (write f.window).outcome <;> simp only [ho]

/-- A device that looks for a frame takes the oldest that waits, and the frame goes home. -/
theorem Terminal.take_device (l : Link) :
    ((Terminal.ofEnd .device).take 0 l = (none, l) ∧ l.toDevice.pending = []) ∨
      ∃ f lane, (Terminal.ofEnd .device).take 0 l = (some f, { l with toDevice := lane }) ∧
        l.toDevice.pending = f :: lane.pending ∧
        ∀ {room k away}, l.toDevice.Stocked room k away → lane.Stocked room k away := by
  rcases hr : l.toDevice.receive with ⟨_ | f, lane⟩
  · obtain ⟨hi, rfl⟩ := Lane.receive_none hr
    left
    refine ⟨?_, by simp [Lane.pending, hi]⟩
    simp [Terminal.take, Terminal.ofEnd, Link.receive, Link.inbound, Link.withInbound, hr]
  · obtain ⟨hi, -, -⟩ := Lane.receive_some hr
    right
    refine ⟨f.payload, lane.recycle f, ?_, by rw [Lane.pending_recycle, Lane.pending, hi]; rfl, fun hs => ?_⟩
    · simp [Terminal.take, Terminal.ofEnd, Link.receive, Link.recycle, Link.inbound, Link.withInbound, hr]
    · obtain ⟨hf, hst⟩ := (hs.receive hr).give
      rw [List.append_nil] at hst
      exact hst.recycle hf

/-- What was written into a frame in hand is on the lane, and a frame without a packet goes
home. -/
theorem Lane.Stocked.post {room k : Nat} {away : List Frame} {lane : Lane} {f : Frame} {w : Written}
    (h : lane.Stocked room (k + 1) away) (hf : room ≤ f.window.length) (hlen : w.frame.length = f.window.length)
    (hok : ∀ n, w.outcome = .ok n → 0 < n ∧ n ≤ f.window.length) :
    (lane.submit (w.release f)).Stocked room k away ∧
      (lane.submit (w.release f)).pending = lane.pending ++ w.packets := by
  unfold Written.packets
  cases ho : w.outcome with
  | error e =>
    rw [Written.release_of_error ho]
    obtain ⟨hw, hst⟩ := h.submit_empty (f := ⟨f.slot, w.frame, 0⟩) (by simpa [hlen] using hf) rfl
    refine ⟨hst, ?_⟩
    rw [List.append_nil, Lane.pending, hw]
    rfl
  | ok n =>
    obtain ⟨hpos, hle⟩ := hok n ho
    rw [Written.release_of_ok ho (by rwa [hlen])]
    obtain ⟨hw, -, hst⟩ := h.submit (f := ⟨f.slot, w.frame, n⟩) (by simpa [hlen] using hf) (Nat.ne_of_gt hpos)
    refine ⟨hst, ?_⟩
    rw [Lane.pending, hw, List.map_append, List.map_singleton]
    rfl

end RadioStream
