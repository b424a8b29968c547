import Mathlib.Algebra.GroupWithZero.Nat
import RadioStream.Proofs.Sim.TransmitMoves
/-!
# Packets and their alarms

A `TransmitLine` is a transmit chain on its link, with the packets that the chain took and
the events that it raised for each. Whatever comes in, a packet that ends a burst is
acknowledged once, unless a packet of its burst came after its time, of which the
host then hears once: `Books` is kept by every move of the chain.
-/

namespace RadioStream.Sim

/-! ## Bursts -/

/-- A packet that a chain took, with the events raised from then until the next packet. -/
structure Handled where
  header : Header
  raised : List EventCode := []
  /-- Whether the chain is done with it. -/
  done : Bool := false

namespace Handled

/-- How often the end of a burst was acknowledged. -/
def acks (p : Handled) : Nat := p.raised.count .burstAck

/-- How often a packet was reported to be late. -/
def lates (p : Handled) : Nat := p.raised.count .timeError

/-- The packet after further events. -/
def note (codes : List EventCode) (done : Bool) (p : Handled) : Handled :=
  { p with raised := p.raised ++ codes, done := p.done || done }

@[simp] theorem acks_note (p : Handled) (codes : List EventCode) (done : Bool) :
    (p.note codes done).acks = p.acks + codes.count .burstAck := List.count_append

@[simp] theorem lates_note (p : Handled) (codes : List EventCode) (done : Bool) :
    (p.note codes done).lates = p.lates + codes.count .timeError := List.count_append

end Handled

/-- The packets of the burst of the newest packet up to that packet, newest first. A
burst begins where a packet says so, or after the end of another. -/
def burstOf : List Handled → List Handled
  | [] => []
  | [p] => [p]
  | p :: q :: ps => p :: if p.header.startOfBurst || q.header.endOfBurst then [] else burstOf (q :: ps)

/-- How many packets of the burst of the newest packet were reported to be late. -/
def lateness (ps : List Handled) : Nat := ((burstOf ps).map Handled.lates).sum

/-- How many packets before the next one, if that does not start a burst, were late in its burst. -/
def latesBefore : List Handled → Nat
  | [] => 0
  | p :: ps => if p.header.endOfBurst then 0 else lateness (p :: ps)

theorem lateness_cons (p : Handled) (ps : List Handled) :
    lateness (p :: ps) = p.lates + if p.header.startOfBurst then 0 else latesBefore ps := by
  cases ps with
  | nil => simp [lateness, burstOf, latesBefore]
  | cons q ps =>
    have hb : burstOf (p :: q :: ps) =
        p :: if p.header.startOfBurst || q.header.endOfBurst then [] else burstOf (q :: ps) := rfl
    rw [lateness, hb, latesBefore]
    cases p.header.startOfBurst <;> cases q.header.endOfBurst <;> simp [lateness]

/-- The end of a burst was acknowledged, or a packet of the burst was late. -/
def Fair (p : Handled) (ps : List Handled) : Prop :=
  p.header.endOfBurst = true → lateness (p :: ps) = 0 ∧ p.acks = 1 ∨ lateness (p :: ps) = 1 ∧ p.acks = 0

/-- All packets that the chain is done with are treated fairly. -/
def AllFair : List Handled → Prop
  | [] => True
  | p :: ps => (p.done = true → Fair p ps) ∧ (p.header.endOfBurst = false → p.acks = 0) ∧ AllFair ps

theorem AllFair.fair {ps : List Handled} (h : AllFair ps) {p : Handled} {qs : List Handled} (hs : p :: qs <:+ ps)
    (hd : p.done = true) : Fair p qs := by
  induction ps with
  | nil => cases List.suffix_nil.1 hs
  | cons q ps ih =>
    rcases List.suffix_cons_iff.1 hs with he | hs
    · cases he
      exact h.1 hd
    · exact ih h.2.2 hs

theorem AllFair.silent {ps : List Handled} (h : AllFair ps) : ∀ p ∈ ps, p.header.endOfBurst = false → p.acks = 0 := by
  induction ps with
  | nil => simp
  | cons q ps ih => exact List.forall_mem_cons.2 ⟨h.2.1, ih h.2.2⟩

/-! ## Further events -/

section Notes

variable {codes : List EventCode} {p : Handled} {ps : List Handled} {done : Bool}

/-- Events that neither acknowledge a burst nor report a late packet. -/
structure Harmless (codes : List EventCode) : Prop where
  acks : codes.count .burstAck = 0
  lates : codes.count .timeError = 0

theorem Harmless.nil : Harmless [] := ⟨rfl, rfl⟩

theorem lateness_note_add (codes : List EventCode) (done : Bool) (p : Handled) (ps : List Handled) :
    lateness (p.note codes done :: ps) = lateness (p :: ps) + codes.count .timeError := by
  rw [lateness_cons, lateness_cons, Handled.lates_note, Nat.add_right_comm]
  rfl

theorem lateness_note (h : Harmless codes) : lateness (p.note codes done :: ps) = lateness (p :: ps) := by
  rw [lateness_note_add, h.lates, Nat.add_zero]

theorem fair_note (h : Harmless codes) : Fair (p.note codes done) ps ↔ Fair p ps := by
  unfold Fair
  rw [lateness_note h, Handled.acks_note, h.acks]
  rfl

theorem latesBefore_note (h : Harmless codes) :
    latesBefore (ps.modifyHead (Handled.note codes done)) = latesBefore ps := by
  cases ps with
  | nil => rfl
  | cons p ps =>
    rw [List.modifyHead_cons, latesBefore, latesBefore, lateness_note h]
    rfl

theorem AllFair.note (h : AllFair ps) (hc : Harmless codes) (hd : done = true → ∀ p qs, ps = p :: qs → Fair p qs) :
    AllFair (ps.modifyHead (Handled.note codes done)) := by
  cases ps with
  | nil => trivial
  | cons p ps =>
    obtain ⟨hf, hs, hr⟩ := h
    refine ⟨fun hdone => ?_, fun he => ?_, hr⟩
    · rw [fair_note hc]
      rcases (Bool.or_eq_true _ _).mp hdone with hp | hp
      · exact hf hp
      · exact hd hp p ps rfl
    · rw [Handled.acks_note, hc.acks]
      exact hs he

end Notes

/-! ## What a chain knows of the burst -/

/-- Whether the chain is done with all packets. -/
def TransmitPhase.attends : TransmitPhase → Bool
  | .attend => true
  | _ => false

/-- A packet of which nothing was told yet. -/
structure Handled.Fresh (h : Header) (p : Handled) : Prop where
  header : p.header = h
  acks : p.acks = 0
  done : p.done = false

/-- No packet of the burst of a packet that is not dropped was late. -/
theorem Handled.Fresh.lateness_eq_zero {h : Header} {p : Handled} {qs : List Handled} {dropping : Bool} (hf : p.Fresh h)
    (hl : p.lates = 0) (hbefore : latesBefore qs = dropping.toNat) (hd : (dropping && !h.startOfBurst) = false) :
    lateness (p :: qs) = 0 := by
  rw [lateness_cons, hl, hf.header, hbefore]
  cases dropping <;> cases hs : h.startOfBurst <;> simp_all

/-- Between two packets: those of a burst are dropped exactly if one of them was late. -/
structure Rested (dropping : Bool) (ps : List Handled) : Prop where
  latesBefore : latesBefore ps = dropping.toNat
  fair : ∀ p qs, ps = p :: qs → Fair p qs

/-- Before the chain decides on a packet. -/
def Judging (h : Header) (dropping : Bool) (ps : List Handled) : Prop :=
  ∃ p qs, ps = p :: qs ∧ p.Fresh h ∧ p.lates = 0 ∧ latesBefore qs = dropping.toNat

/-- Before the chain has played a packet. No packet of its burst was late. -/
def Playing (h : Header) (dropping : Bool) (ps : List Handled) : Prop :=
  ∃ p qs, ps = p :: qs ∧ p.Fresh h ∧ dropping = false ∧ lateness (p :: qs) = 0

section Notes

variable {codes : List EventCode} {ps : List Handled} {dropping done : Bool} {h : Header}

theorem Handled.Fresh.note {p : Handled} (hp : p.Fresh h) (hc : Harmless codes) : (p.note codes false).Fresh h where
  header := hp.header
  acks := by rw [acks_note, hp.acks, hc.acks]
  done := by rw [Handled.note, hp.done]; rfl

theorem Rested.note (hr : Rested dropping ps) (hc : Harmless codes) :
    Rested dropping (ps.modifyHead (Handled.note codes done)) where
  latesBefore := (latesBefore_note hc).trans hr.latesBefore
  fair p qs he := by
    cases ps with
    | nil => cases he
    | cons q qs' =>
      cases he
      exact (fair_note hc).2 (hr.fair q _ rfl)

theorem Judging.note (hj : Judging h dropping ps) (hc : Harmless codes) :
    Judging h dropping (ps.modifyHead (Handled.note codes false)) := by
  obtain ⟨p, qs, rfl, hp, hl, hd⟩ := hj
  exact ⟨_, qs, rfl, hp.note hc, by rw [Handled.lates_note, hl, hc.lates], hd⟩

theorem Playing.note (hl : Playing h dropping ps) (hc : Harmless codes) :
    Playing h dropping (ps.modifyHead (Handled.note codes false)) := by
  obtain ⟨p, qs, rfl, hp, hd, hz⟩ := hl
  exact ⟨_, qs, rfl, hp.note hc, hd, (lateness_note hc).trans hz⟩

end Notes

namespace TransmitChain

/-- The codes that a chain has just raised. -/
def codes (c : TransmitChain) : List EventCode := c.alarm.toList.map (·.code)

/-- The packets after a step from one chain to another. -/
def record (c c' : TransmitChain) (ps : List Handled) : List Handled :=
  let ps := match c.phase, c'.phase with
    | .listen, .judge h _ => ({ header := h } : Handled) :: ps
    | _, _ => ps
  ps.modifyHead (Handled.note c'.codes c'.phase.attends)

/-- What the chain knows of the burst of the newest packet. -/
def Knows (c : TransmitChain) (ps : List Handled) : Prop :=
  match c.phase with
  | .attend | .listen => Rested c.dropping ps
  | .judge h _ => Judging h c.dropping ps
  | .hold h _ _ | .play h _ | .finish h => Playing h c.dropping ps
  | .stopped => True

/-- Every burst that ended was acknowledged or late. -/
structure Books (c : TransmitChain) (ps : List Handled) : Prop where
  fair : AllFair ps
  knows : c.Knows ps

section Moves

variable {now : Reading} {c c' : TransmitChain} {l : Link} {heard : List Bytes} {ps : List Handled} {h : Header}
  {n : Nat}

/-- A step at which no packet is taken. -/
theorem record_eq (hp : (∀ h n, c'.phase ≠ .judge h n) ∨ c.phase ≠ .listen) :
    record c c' ps = ps.modifyHead (Handled.note c'.codes c'.phase.attends) := by
  unfold record
  split
  · next he hj =>
    rcases hp with hp | hp
    · exact absurd hj (hp _ _)
    · exact absurd he hp
  · rfl

/-- Between two packets. -/
theorem Books.rest (hb : c.Books ps) (hp : c.phase = .attend ∨ c.phase = .listen) (hc : Harmless c'.codes)
    (hp' : c'.phase = .attend ∨ c'.phase = .listen) (hd : c'.dropping = c.dropping) : c'.Books (record c c' ps) := by
  have hr : Rested c.dropping ps := by
    have hk := hb.knows
    rcases hp with hp | hp <;> simpa only [Knows, hp] using hk
  rw [record_eq (.inl (by rcases hp' with hp' | hp' <;> simp [hp']))]
  refine ⟨hb.fair.note hc fun _ => hr.fair, ?_⟩
  rcases hp' with hp' | hp' <;> simpa only [Knows, hp', hd] using hr.note hc

/-- While a packet is handled and is not done. -/
theorem Books.handle (hb : c.Books ps) (hc : Harmless c'.codes) (hp : c.phase ≠ .listen)
    (hp' : c'.phase.attends = false) (hk : c.Knows ps → c'.Knows (ps.modifyHead (Handled.note c'.codes false))) :
    c'.Books (record c c' ps) := by
  rw [record_eq (.inr hp), hp']
  exact ⟨hb.fair.note hc (by simp), hk hb.knows⟩

/-- The chain is done with a packet. -/
theorem Books.settle (hb : c.Books ps) {p : Handled} {qs : List Handled} (hs : ps = p :: qs) (hf : p.Fresh h)
    (hp : c.phase ≠ .listen) (hp' : c'.phase = .attend) {late acked : Nat}
    (hlate : lateness (p :: qs) + c'.codes.count .timeError = late) (hacked : c'.codes.count .burstAck = acked)
    (hend : h.endOfBurst = true → c'.dropping = false ∧ (late = 0 ∧ acked = 1 ∨ late = 1 ∧ acked = 0))
    (hgo : h.endOfBurst = false → late = c'.dropping.toNat ∧ acked = 0) : c'.Books (record c c' ps) := by
  subst hs
  have hl : lateness (p.note c'.codes true :: qs) = late := (lateness_note_add _ _ _ _).trans hlate
  have ha : (p.note c'.codes true).acks = acked := by rw [Handled.acks_note, hf.acks, hacked, Nat.zero_add]
  have he : (p.note c'.codes true).header.endOfBurst = h.endOfBurst := congrArg Header.endOfBurst hf.header
  have hfair : Fair (p.note c'.codes true) qs := by
    intro hend'
    rw [hl, ha]
    exact (hend (he ▸ hend')).2
  rw [record_eq (.inr hp), hp']
  refine ⟨⟨fun _ => hfair, fun hgo' => ?_, hb.fair.2.2⟩, ?_⟩
  · exact ha.trans (hgo (he ▸ hgo')).2
  · simp only [Knows, hp']
    refine ⟨?_, fun p' qs' heq => ?_⟩
    · show (if (p.note c'.codes true).header.endOfBurst then 0 else lateness (p.note c'.codes true :: qs)) = _
      rw [he, hl]
      cases hh : h.endOfBurst with
      | true => rw [(hend hh).1]; rfl
      | false => exact (hgo hh).1
    · cases heq
      exact hfair

/-- A step that changes neither what the chain does next nor what it knows. -/
theorem Books.same (hb : c.Books ps) (hc : Harmless c'.codes) (hp : c'.phase = c.phase)
    (hd : c'.dropping = c.dropping) :
    c'.Books (record c c' ps) := by
  cases hph : c.phase with
  | attend => exact hb.rest (.inl hph) hc (.inl (hp.trans hph)) hd
  | listen => exact hb.rest (.inr hph) hc (.inr (hp.trans hph)) hd
  | judge h n =>
    refine hb.handle hc (by simp [hph]) (by rw [hp, hph]; rfl) fun hk => ?_
    simp only [Knows, hp, hph, hd] at hk ⊢
    exact hk.note hc
  | hold h n time | play h n | finish h =>
    refine hb.handle hc (by simp [hph]) (by rw [hp, hph]; rfl) fun hk => ?_
    simp only [Knows, hp, hph, hd] at hk ⊢
    exact hk.note hc
  | stopped =>
    refine hb.handle hc (by simp [hph]) (by rw [hp, hph]; rfl) fun _ => ?_
    simp only [Knows, hp, hph]

theorem note_spec (now : Reading) (ha : c.alarm = none) (h : Header) (n : Nat) :
    (c.note now h n).phase = .judge h n ∧ (c.note now h n).dropping = c.dropping ∧ Harmless (c.note now h n).codes := by
  unfold note
  dsimp only
  split
  · refine ⟨rfl, rfl, ?_⟩
    cases c.inBurst <;> exact ⟨rfl, rfl⟩
  · exact ⟨rfl, rfl, by simp [codes, ha, Harmless.nil]⟩

theorem play_spec (now : Reading) (ha : c.alarm = none) (h : Header) (n : Nat) :
    (c.play now h n).phase = .finish h ∧ (c.play now h n).dropping = c.dropping ∧ Harmless (c.play now h n).codes := by
  unfold play
  dsimp only
  split
  · exact ⟨rfl, rfl, rfl, rfl⟩
  · exact ⟨rfl, rfl, by simp [codes, goTo, ha, Harmless.nil]⟩

theorem finish_spec (now : Reading) (ha : c.alarm = none) (h : Header) :
    (c.finish now h).phase = .attend ∧ (c.finish now h).dropping = c.dropping ∧
      (c.finish now h).codes = if h.endOfBurst then [.burstAck] else [] := by
  unfold finish
  dsimp only
  split
  · exact ⟨rfl, rfl, rfl⟩
  · exact ⟨rfl, rfl, by simp [codes, ha]⟩

/-- A packet is taken. -/
theorem Books.take (hb : c.Books ps) (hp : c.phase = .listen) (hp' : c'.phase = .judge h n)
    (hd : c'.dropping = c.dropping) (hc : Harmless c'.codes) : c'.Books (record c c' ps) := by
  have hk := hb.knows
  simp only [Knows, hp] at hk
  have hr : record c c' ps = ({ header := h } : Handled).note c'.codes false :: ps := by
    simp [record, hp, hp', TransmitPhase.attends]
  have hfresh : Handled.Fresh h (({ header := h } : Handled).note c'.codes false) :=
    Handled.Fresh.note ⟨rfl, rfl, rfl⟩ hc
  rw [hr]
  refine ⟨⟨?_, fun _ => hfresh.acks, hb.fair⟩, ?_⟩
  · rw [hfresh.done]
    simp
  · simp only [Knows, hp']
    refine ⟨_, ps, rfl, hfresh, ?_, hd ▸ hk.latesBefore⟩
    rw [Handled.lates_note, hc.lates]
    rfl

/-- Every move keeps the books. -/
theorem Move.books (hm : Move now c l heard c') (hb : c.Books ps) : c'.Books (record c c' ps) := by
  have hk := hb.knows
  cases hm with
  | told ha => exact hb.same .nil rfl rfl
  | closed ha hp =>
    refine hb.handle ?_ (by simp [hp]) rfl fun _ => trivial
    simp [codes, goTo, ha, Harmless.nil]
  | injected ha hp hi => exact hb.rest (.inl hp) ⟨rfl, rfl⟩ (.inl hp) rfl
  | attended ha hp => exact hb.rest (.inl hp) (by simp [codes, goTo, ha, Harmless.nil]) (.inr rfl) rfl
  | stalled ha hp hs hl => exact hb.rest (.inr hp) ⟨rfl, rfl⟩ (.inl rfl) rfl
  | unheard ha hp hl hn => exact hb.rest (.inr hp) (by simp [codes, goTo, ha, Harmless.nil]) (.inl rfl) rfl
  | @heard f h n ha hp hf =>
    obtain ⟨hph, hd, hc⟩ := note_spec (c := c.goTo .attend) now ha h n
    exact hb.take hp hph hd hc
  | @dropped h n ha hp hd hs =>
    simp only [Knows, hp] at hk
    obtain ⟨p, qs, rfl, hf, hl, hbefore⟩ := hk
    have hc : codes { c with dropping := !h.endOfBurst, phase := .attend } = [] := by simp [codes, ha]
    have hlate : lateness (p :: qs) = 1 := by
      rw [lateness_cons, hl, hf.header, hs, hbefore, hd]
      rfl
    refine hb.settle rfl hf (by simp [hp]) rfl (by rw [hc, hlate]) (by rw [hc]) ?_ ?_
    · intro he
      exact ⟨by simp [he], .inr ⟨rfl, rfl⟩⟩
    · intro he
      exact ⟨by simp [he], rfl⟩
  | @late h n ha hp hd ht hl =>
    simp only [Knows, hp] at hk
    obtain ⟨p, qs, rfl, hf, hl, hbefore⟩ := hk
    have hlate : lateness (p :: qs) + [EventCode.timeError].count .timeError = 1 := by
      rw [hf.lateness_eq_zero hl hbefore hd]
      rfl
    refine hb.settle rfl hf (by simp [hp]) rfl hlate rfl ?_ ?_
    · intro he
      exact ⟨by simp [raising, he], .inr ⟨rfl, rfl⟩⟩
    · intro he
      exact ⟨by simp [raising, he], rfl⟩
  | @accepted h n ha hp hd ht =>
    refine hb.handle (by simp [codes, ha, Harmless.nil]) (by simp [hp]) ?_ fun hk => ?_
    · cases h.hasTime <;> rfl
    · simp only [Knows, hp] at hk
      obtain ⟨p, qs, rfl, hf, hl, hbefore⟩ := hk
      have hplay : Playing h false (p :: qs) := ⟨p, qs, rfl, hf, rfl, hf.lateness_eq_zero hl hbefore hd⟩
      have hnote := hplay.note (show Harmless (codes { c with
        dropping := false, phase := if h.hasTime then .hold h n 0 else .play h n }) by simp [codes, ha, Harmless.nil])
      unfold Knows
      cases h.hasTime <;> exact hnote
  | timeless ha hp =>
    refine hb.handle ?_ (by simp [hp]) rfl fun _ => trivial
    simp [codes, goTo, ha, Harmless.nil]
  | due ha hp hl =>
    refine hb.handle (by simp [codes, goTo, ha, Harmless.nil]) (by simp [hp]) rfl fun hk => ?_
    simp only [Knows, hp] at hk
    exact hk.note (by simp [codes, goTo, ha, Harmless.nil])
  | early ha hp =>
    refine hb.handle (by simp [codes, goTo, ha, Harmless.nil]) (by simp [hp]) rfl fun hk => ?_
    simp only [Knows, hp] at hk
    exact hk.note (by simp [codes, goTo, ha, Harmless.nil])
  | @played h n ha hp =>
    obtain ⟨hph, hd, hc⟩ := play_spec now ha h n
    refine hb.handle hc (by simp [hp]) (by rw [hph]; rfl) fun hk => ?_
    simp only [Knows, hp, hph, hd] at hk ⊢
    exact hk.note hc
  | @finished h ha hp =>
    simp only [Knows, hp] at hk
    obtain ⟨p, qs, rfl, hf, hd, hlate⟩ := hk
    obtain ⟨hph, hd', hc⟩ := finish_spec now ha h
    rw [hd] at hd'
    refine hb.settle rfl hf (by simp [hp]) hph (by rw [hlate, hc]) (by rw [hc]) ?_ ?_
    · intro he
      simp [he, hd']
    · intro he
      simp [he, hd']
  | stopped ha hp => exact hb.same (by simp [codes, ha, Harmless.nil]) rfl rfl

end Moves

end TransmitChain

end RadioStream.Sim
