import RadioStream.Proofs.Lane
import RadioStream.Sim.TransmitChain
/-!
# The moves of a transmit chain

`Move` lists what a transmit chain may do in one step, with the frames that it takes from
its link. `step_moves` says that a step is one of these moves, and that the lane to the
device gives up the frames that were taken and nothing else.
-/

namespace RadioStream

namespace Sim.TransmitChain

/-- The data packet that a frame holds, and the length of its payload. -/
def packet? (frame : Bytes) : Option (Header × Nat) :=
  match Header.decode frame with
  | .ok (h, payload) => if h.kind = .data then some (h, payload.length) else none
  | .error _ => none

/-- What a chain does in one step, with the frames that it takes. -/
inductive Move (now : Reading) (c : TransmitChain) (l : Link) : List Bytes → TransmitChain → Prop
  /-- The event that was raised is sent, or lost. -/
  | told {a : Alarm} : c.alarm = some a → Move now c l [] { c with alarm := none }
  | closed : c.alarm = none → c.phase = .attend → l.closed = true → Move now c l [] (c.goTo .stopped)
  | injected {words : Words} {injections : Queue Words} : c.alarm = none → c.phase = .attend →
      c.injections.take = (some words, injections) →
      Move now c l [] ({ c with injections }.raising .userPayload now.tick words)
  | attended : c.alarm = none → c.phase = .attend → Move now c l [] (c.goTo .listen)
  /-- Nothing came in for too long. -/
  | stalled : c.alarm = none → c.phase = .listen → c.inBurst = true → c.lastPacket + c.stall < now.elapsed →
      Move now c l [] ({ c with inBurst := false, phase := .attend }.raising .underflow now.tick)
  /-- No packet came in. -/
  | unheard {fs : List Bytes} : c.alarm = none → c.phase = .listen → fs.length ≤ 1 →
      (∀ f ∈ fs, packet? f = none) → Move now c l fs (c.goTo .attend)
  | heard {f : Bytes} {h : Header} {n : Nat} : c.alarm = none → c.phase = .listen → packet? f = some (h, n) →
      Move now c l [f] ((c.goTo .attend).note now h n)
  | dropped {h : Header} {n : Nat} : c.alarm = none → c.phase = .judge h n → c.dropping = true →
      h.startOfBurst = false → Move now c l [] { c with dropping := !h.endOfBurst, phase := .attend }
  /-- The time of a packet has passed. -/
  | late {h : Header} {n : Nat} : c.alarm = none → c.phase = .judge h n →
      (c.dropping && !h.startOfBurst) = false → h.hasTime = true → h.timestamp.toNat < now.tick →
      Move now c l [] ({ c with inBurst := false, dropping := !h.endOfBurst, phase := .attend }.raising .timeError
        h.timestamp.toNat)
  | accepted {h : Header} {n : Nat} : c.alarm = none → c.phase = .judge h n →
      (c.dropping && !h.startOfBurst) = false → (h.hasTime && decide (h.timestamp.toNat < now.tick)) = false →
      Move now c l [] { c with dropping := false, phase := if h.hasTime then .hold h n 0 else .play h n }
  /-- The clock cannot tell the time left. -/
  | timeless {h : Header} {n time : Nat} : c.alarm = none → c.phase = .hold h n time →
      Move now c l [] (c.goTo .stopped)
  | due {h : Header} {n time : Nat} : c.alarm = none → c.phase = .hold h n time →
      now.left? h.timestamp.toNat = some 0 → Move now c l [] (c.goTo (.play h n))
  | early {h : Header} {n time time' : Nat} : c.alarm = none → c.phase = .hold h n time →
      Move now c l [] (c.goTo (.hold h n time'))
  | played {h : Header} {n : Nat} : c.alarm = none → c.phase = .play h n → Move now c l [] (c.play now h n)
  | finished {h : Header} : c.alarm = none → c.phase = .finish h → Move now c l [] (c.finish now h)
  | stopped : c.alarm = none → c.phase = .stopped → Move now c l [] c

/-- What a step does to the lane to the device: frames are taken in their order and go
home. -/
structure Drains (l : Link) (heard : List Bytes) (l' : Link) : Prop where
  heard : l.toDevice.pending = heard ++ l'.toDevice.pending
  stocked : ∀ room k, l.toDevice.Stocked room k [] → l'.toDevice.Stocked room k []

theorem Drains.still {l l' : Link} (h : l'.toDevice = l.toDevice) : Drains l [] l' :=
  ⟨by rw [h]; rfl, fun _ _ hs => h ▸ hs⟩

/-- An event goes out on the lane to the host. -/
theorem toDevice_send (c : TransmitChain) (a : Alarm) (l : Link) : (c.send a l).toDevice = l.toDevice := by
  unfold send Terminal.send
  have ha : (Terminal.ofEnd .device).acquire 0 l = (l.toHost.acquire.1, { l with toHost := l.toHost.acquire.2 }) := rfl
  dsimp only
  rw [ha]
  cases l.toHost.acquire.1 with
  | none => rfl
  | some f =>
    unfold Terminal.sendIn
    dsimp only
    split <;> rfl

section Steps

variable {now : Reading} {c : TransmitChain} {l : Link}

theorem listen_moves (ha : c.alarm = none) (hp : c.phase = .listen) :
    ∃ heard, Move now c l heard (c.listen now l).1 ∧ Drains l heard (c.listen now l).2 := by
  unfold listen
  rcases Terminal.take_device l with ⟨ht, -⟩ | ⟨f, lane, ht, hf, hst⟩
  · dsimp only
    rw [ht]
    dsimp only
    split
    · next hs =>
      rw [Bool.and_eq_true, decide_eq_true_eq] at hs
      exact ⟨[], .stalled ha hp hs.1 hs.2, .still rfl⟩
    · exact ⟨[], .unheard ha hp (by simp) (by simp), .still rfl⟩
  · have hd : Drains l [f] { l with toDevice := lane } := ⟨hf, fun _ _ => hst⟩
    dsimp only
    rw [ht]
    dsimp only
    cases hh : Header.decode f with
    | error e => exact ⟨_, .unheard ha hp (by simp) (by simp [packet?, hh]), hd⟩
    | ok r =>
      obtain ⟨h, payload⟩ := r
      dsimp only
      by_cases hk : h.kind = .data
      · rw [if_pos hk]
        exact ⟨_, .heard ha hp (by rw [packet?, hh]; exact if_pos hk), hd⟩
      · rw [if_neg hk]
        exact ⟨_, .unheard ha hp (by simp) (by simp [packet?, hh, hk]), hd⟩

theorem judge_moves {h : Header} {n : Nat} (ha : c.alarm = none) (hp : c.phase = .judge h n) :
    Move now c l [] (c.judge now h n) := by
  unfold judge
  by_cases hd : (c.dropping && !h.startOfBurst) = true
  · rw [if_pos hd]
    rw [Bool.and_eq_true, Bool.not_eq_true'] at hd
    exact .dropped ha hp hd.1 hd.2
  · rw [if_neg hd]
    rw [Bool.not_eq_true] at hd
    by_cases ht : (h.hasTime && decide (h.timestamp.toNat < now.tick)) = true
    · rw [if_pos ht]
      rw [Bool.and_eq_true, decide_eq_true_eq] at ht
      exact .late ha hp hd ht.1 ht.2
    · rw [if_neg ht]
      exact .accepted ha hp hd (by simpa using ht)

theorem hold_moves (now : Reading) (l : Link) {h : Header} {n time : Nat} (ha : c.alarm = none)
    (hp : c.phase = .hold h n time) :
    Move now c l [] (c.hold now h n l).1 ∧ (c.hold now h n l).2.toDevice = l.toDevice := by
  unfold hold
  split
  · exact ⟨.timeless ha hp, rfl⟩
  · next hl => exact ⟨.due ha hp hl, rfl⟩
  · exact ⟨.early ha hp, rfl⟩

/-- A step of a chain is a move. -/
theorem step_moves (now : Reading) (c : TransmitChain) (l : Link) :
    ∃ heard, Move now c l heard (c.step now l).1 ∧ Drains l heard (c.step now l).2 := by
  unfold step
  cases ha : c.alarm with
  | some a => exact ⟨[], .told ha, .still (toDevice_send c a l)⟩
  | none =>
    dsimp only
    cases hp : c.phase with
    | attend =>
      dsimp only
      unfold attend
      by_cases hc : l.closed = true
      · rw [if_pos hc]
        exact ⟨[], .closed ha hp hc, .still rfl⟩
      · rw [if_neg hc]
        rcases hi : c.injections.take with ⟨_ | words, injections⟩
        · exact ⟨[], .attended ha hp, .still rfl⟩
        · exact ⟨[], .injected ha hp hi, .still rfl⟩
    | listen => exact listen_moves ha hp
    | judge h n => exact ⟨[], judge_moves ha hp, .still rfl⟩
    | hold h n time =>
      obtain ⟨hm, hl⟩ := hold_moves now l ha hp
      exact ⟨[], hm, .still hl⟩
    | play h n => exact ⟨[], .played ha hp, .still rfl⟩
    | finish h => exact ⟨[], .finished ha hp, .still rfl⟩
    | stopped => exact ⟨[], .stopped ha hp, .still rfl⟩

end Steps

end Sim.TransmitChain

end RadioStream
