import RadioStream.Proofs.Link
import RadioStream.Proofs.Sim.Alarms
/-!
# A line to a transmit chain

A transmit chain on its link, with the packets that it took and the events that it raised.
`TransmitLine.Sound` says that the frames on their way to the chain are data packets of
whole samples, numbered from what the chain expects up to what the host sends next.
Then no event of the chain tells of a gap or of a broken sample.
-/

namespace RadioStream

/-- Events that tell of a gap in the numbers or of a broken sample. -/
def EventCode.isFault : EventCode → Bool
  | .seqError | .seqErrorInBurst | .underflowInPacket => true
  | _ => false

namespace Sim

/-- A transmit chain and its link. -/
structure TransmitLine where
  chain : TransmitChain
  link : Link
  /-- The packets that the chain took, the last one first. -/
  taken : List Handled := []
  /-- The events that it raised. -/
  alarms : List EventCode := []

/-- What happens at a line beside what the host sends. -/
inductive LineAction where
  /-- The chain takes a step. -/
  | chain (now : Reading)
  /-- Words are to be raised. -/
  | inject (words : Words)
  /-- The host reads an event. -/
  | collect
  /-- An end of the link is given up. -/
  | close

namespace TransmitLine

/-- A line at the start of its chain. -/
def fresh (channel : Nat) (format : WireFormat) (stall : Nat) (injections : Queue Words) (link : Link) :
    TransmitLine :=
  { chain := { channel, format, stall, injections }, link }

/-- The chain takes a step. -/
def tick (now : Reading) (x : TransmitLine) : TransmitLine :=
  let (chain, link) := x.chain.step now x.link
  { chain, link, taken := x.chain.record chain x.taken, alarms := x.alarms ++ chain.codes }

def step (x : TransmitLine) : LineAction → TransmitLine
  | .chain now => x.tick now
  | .inject words =>
    { x with chain := { x.chain with injections := (x.chain.injections.push? words).getD x.chain.injections } }
  | .collect => { x with link := ((Terminal.ofEnd .host).take 0 x.link).2 }
  | .close => { x with link := x.link.close }

end TransmitLine

/-! ## Frames on their way -/

/-- A frame holds a data packet of whole samples with a number. -/
def Numbers (format : WireFormat) (q : UInt16) (frame : Bytes) : Prop :=
  ∃ h n, TransmitChain.packet? frame = some (h, n) ∧ h.sequence = q ∧ n % format.sampleBytes = 0

/-- Frames hold data packets that are numbered from one number up to before another. -/
def Numbered (format : WireFormat) : UInt16 → List Bytes → UInt16 → Prop
  | q, [], q' => q = q'
  | q, f :: fs, q' => Numbers format q f ∧ Numbered format (q + 1) fs q'

theorem Numbered.concat {format : WireFormat} {q q' : UInt16} {fs : List Bytes} {f : Bytes}
    (h : Numbered format q fs q') (hf : Numbers format q' f) : Numbered format q (fs ++ [f]) (q' + 1) := by
  induction fs generalizing q with
  | nil =>
    cases h
    exact ⟨hf, rfl⟩
  | cons g fs ih => exact ⟨h.1, ih h.2⟩

/-- What a transmitter writes is numbered as its header says, and holds whole samples. -/
theorem numbers_bytes (format : WireFormat) {h : Header} (hk : h.kind = .data) (xs : List (Iq Int16)) :
    Numbers format h.sequence (DataPacket.bytes format h xs) := by
  have hlen : ((xs.flatMap format.encode).take (UInt32.ofNat (xs.length * format.sampleBytes)).toNat).length =
      xs.length * format.sampleBytes % 2 ^ 32 := by
    rw [List.length_take, format.length_flatMap_encode]
    exact Nat.min_eq_left (Nat.mod_le _ _)
  refine ⟨{ h with payloadLength := UInt32.ofNat (xs.length * format.sampleBytes) },
    xs.length * format.sampleBytes % 2 ^ 32, ?_, rfl, ?_⟩
  · rw [TransmitChain.packet?, DataPacket.decode_bytes, ← hlen]
    exact if_pos hk
  · -- a length field that wraps around still holds whole samples
    cases format <;> simp only [WireFormat.sampleBytes] <;> omega

/-! ## No false alarm -/

namespace TransmitChain

/-- The packet that the chain handles has whole samples. -/
def Whole (format : WireFormat) : TransmitPhase → Prop
  | .judge _ n | .hold _ n _ | .play _ n => n % format.sampleBytes = 0
  | _ => True

variable {now : Reading} {c c' : TransmitChain} {l : Link} {heard rest : List Bytes} {q : UInt16}

/-- What the chain hears is what it expects. -/
theorem Move.numbered (hm : Move now c l heard c') (format : WireFormat)
    (h : Numbered format (c.expected.getD 0) (heard ++ rest) q) : Numbered format (c'.expected.getD 0) rest q := by
  cases hm with
  | unheard ha hp hl hn =>
    cases heard with
    | nil => exact h
    | cons f fs =>
      -- a frame that is no data packet is not on its way
      obtain ⟨⟨g, n, hf, -⟩, -⟩ := h
      rw [hn f List.mem_cons_self] at hf
      cases hf
  | @heard f g n ha hp hf =>
    obtain ⟨⟨g', n', hf', hq, -⟩, hrest⟩ := h
    rw [hf] at hf'
    cases hf'
    rw [← hq] at hrest
    have he : ((c.goTo .attend).note now g n).expected = some (g.sequence + 1) := by
      unfold note
      dsimp only
      split <;> rfl
    rw [he]
    exact hrest
  | played =>
    unfold play
    dsimp only
    split <;> exact h
  | finished =>
    unfold finish
    dsimp only
    split <;> exact h
  | _ => exact h

/-- A chain that hears what it expects does not raise a false alarm. -/
theorem Move.quiet (hm : Move now c l heard c') (h : Numbered c.format (c.expected.getD 0) (heard ++ rest) q)
    (hw : Whole c.format c.phase) :
    c'.format = c.format ∧ Whole c.format c'.phase ∧ ∀ code ∈ c'.codes, code.isFault = false := by
  cases hm with
  | told ha => exact ⟨rfl, hw, by simp [codes]⟩
  | closed ha => exact ⟨rfl, trivial, by simp [codes, goTo, ha]⟩
  | injected ha hp => exact ⟨rfl, hw, by simp [codes, raising, EventCode.isFault]⟩
  | attended ha => exact ⟨rfl, trivial, by simp [codes, goTo, ha]⟩
  | stalled => exact ⟨rfl, trivial, by simp [codes, raising, EventCode.isFault]⟩
  | unheard ha => exact ⟨rfl, trivial, by simp [codes, goTo, ha]⟩
  | @heard f g n ha hp hf =>
    obtain ⟨⟨g', n', hf', hq, hn⟩, -⟩ := h
    rw [hf] at hf'
    cases hf'
    have hskip : c.expected.any (· != g.sequence) = false := by
      cases he : c.expected with
      | none => rfl
      | some e => simp [hq, he]
    have hnote : (c.goTo .attend).note now g n =
        { c.goTo .attend with lastPacket := now.elapsed, expected := some (g.sequence + 1), phase := .judge g n } := by
      unfold note
      dsimp only
      rw [if_neg (by rw [Bool.not_eq_true]; exact hskip)]
    rw [hnote]
    exact ⟨rfl, hn, by simp [codes, goTo, ha]⟩
  | dropped ha => exact ⟨rfl, trivial, by simp [codes, ha]⟩
  | late => exact ⟨rfl, trivial, by simp [codes, raising, EventCode.isFault]⟩
  | @accepted g n ha hp =>
    rw [hp] at hw
    refine ⟨rfl, ?_, by simp [codes, ha]⟩
    show Whole c.format (if g.hasTime then .hold g n 0 else .play g n)
    cases g.hasTime <;> exact hw
  | timeless ha => exact ⟨rfl, trivial, by simp [codes, goTo, ha]⟩
  | due ha hp =>
    rw [hp] at hw
    exact ⟨rfl, hw, by simp [codes, goTo, ha]⟩
  | early ha hp =>
    rw [hp] at hw
    exact ⟨rfl, hw, by simp [codes, goTo, ha]⟩
  | @played g n ha hp =>
    rw [hp] at hw
    have hplay : c.play now g n = c.goTo (.finish g) := by
      unfold play
      dsimp only
      exact if_neg (fun hn => hn hw)
    rw [hplay]
    exact ⟨rfl, trivial, by simp [codes, goTo, ha]⟩
  | @finished g ha =>
    obtain ⟨hp, -, hc⟩ := finish_spec now ha g
    refine ⟨?_, by rw [hp]; trivial, ?_⟩
    · unfold finish
      dsimp only
      split <;> rfl
    · rw [hc]
      cases g.endOfBurst <;> simp [EventCode.isFault]
  | stopped ha => exact ⟨rfl, hw, by simp [codes, ha]⟩

end TransmitChain

namespace TransmitLine

/-- The alarms of a line are true: no packet is missing or broken, and a burst that ends
is acknowledged once, or was reported once to be late. -/
structure Truthful (x : TransmitLine) : Prop where
  quiet : ∀ code ∈ x.alarms, code.isFault = false
  settled : ∀ p ps, p :: ps <:+ x.taken → p.done = true → p.header.endOfBurst = true →
    lateness (p :: ps) = 0 ∧ p.acks = 1 ∨ lateness (p :: ps) = 1 ∧ p.acks = 0
  silent : ∀ p ∈ x.taken, p.header.endOfBurst = false → p.acks = 0

/-- The host sends the packet numbered `q` next, with some frames in hand, and the chain
gets them all. -/
structure Sound (format : WireFormat) (q : UInt16) (inHand : Nat) (x : TransmitLine) : Prop where
  reads : x.chain.format = format
  stocked : x.link.toDevice.Stocked 0 inHand []
  numbered : Numbered format (x.chain.expected.getD 0) x.link.toDevice.pending q
  whole : TransmitChain.Whole format x.chain.phase
  quiet : ∀ code ∈ x.alarms, code.isFault = false
  books : x.chain.Books x.taken

variable {format : WireFormat} {q : UInt16} {k : Nat} {x : TransmitLine}

theorem Sound.truthful (h : x.Sound format q k) : x.Truthful where
  quiet := h.quiet
  settled _ _ hs hd := h.books.fair.fair hs hd
  silent := h.books.fair.silent

/-- A step of the chain. -/
theorem Sound.tick (h : x.Sound format q k) (now : Reading) : (x.tick now).Sound format q k := by
  obtain ⟨hf, hs, hn, hw, hquiet, hb⟩ := h
  obtain ⟨heard, hm, hd⟩ := TransmitChain.step_moves now x.chain x.link
  rw [hd.heard] at hn
  subst hf
  obtain ⟨hf', hw', hc⟩ := hm.quiet hn hw
  refine ⟨hf', hd.stocked 0 k hs, hm.numbered _ hn, hw', ?_, hm.books hb⟩
  exact fun code hcode => (List.mem_append.1 hcode).elim (hquiet code) (hc code)

theorem toDevice_take (l : Link) : ((Terminal.ofEnd .host).take 0 l).2.toDevice = l.toDevice := by
  unfold Terminal.take
  have hr : (Terminal.ofEnd .host).receive 0 l = (l.toHost.receive.1, { l with toHost := l.toHost.receive.2 }) := rfl
  rw [hr]
  cases l.toHost.receive.1 <;> rfl

/-- Whatever happens beside the sending. -/
theorem Sound.step (h : x.Sound format q k) (a : LineAction) : (x.step a).Sound format q k := by
  cases a with
  | chain now => exact h.tick now
  | inject words => exact ⟨h.reads, h.stocked, h.numbered, h.whole, h.quiet, h.books.fair, h.books.knows⟩
  | collect =>
    obtain ⟨hf, hs, hn, hw, hquiet, hb⟩ := h
    refine ⟨hf, ?_, ?_, hw, hquiet, hb⟩
    · show ((Terminal.ofEnd .host).take 0 x.link).2.toDevice.Stocked 0 k []
      rw [toDevice_take]
      exact hs
    · show Numbered format _ ((Terminal.ofEnd .host).take 0 x.link).2.toDevice.pending q
      rw [toDevice_take]
      exact hn
  | close => exact ⟨h.reads, h.stocked, h.numbered, h.whole, h.quiet, h.books⟩

/-! ### What the host sends -/

/-- The host takes a frame to fill, if there is one. -/
theorem Sound.acquire (h : x.Sound format q k) :
    Sound format q (if (x.link.acquire .host).1.isSome then k + 1 else k)
      { x with link := (x.link.acquire .host).2 } := by
  obtain ⟨hf, hs, hn, hw, hquiet, hb⟩ := h
  have ha : x.link.acquire .host =
      (x.link.toDevice.acquire.1, { x.link with toDevice := x.link.toDevice.acquire.2 }) := rfl
  rw [ha]
  rcases hr : x.link.toDevice.acquire with ⟨_ | f, lane⟩
  · obtain ⟨-, rfl⟩ := Lane.acquire_none hr
    exact ⟨hf, hs, hn, hw, hquiet, hb⟩
  · refine ⟨hf, (hs.acquire hr).2, ?_, hw, hquiet, hb⟩
    show Numbered format _ (lane.waiting.items.map Frame.payload) q
    rw [(Lane.acquire_some hr).2]
    exact hn

/-- A frame without a packet goes home. -/
theorem Sound.submit_empty (h : x.Sound format q (k + 1)) {f : Frame} (hu : f.used = 0) :
    Sound format q k { x with link := x.link.submit .host f } := by
  obtain ⟨hf, hs, hn, hw, hquiet, hb⟩ := h
  obtain ⟨hwait, hs'⟩ := hs.submit_empty (Nat.zero_le _) hu
  refine ⟨hf, hs', ?_, hw, hquiet, hb⟩
  show Numbered format _ ((x.link.toDevice.submit f).waiting.items.map Frame.payload) q
  rw [hwait]
  exact hn

/-- The next packet is sent. -/
theorem Sound.submit (h : x.Sound format q (k + 1)) {f : Frame} (hu : f.used ≠ 0) (hq : Numbers format q f.payload) :
    Sound format (q + 1) k { x with link := x.link.submit .host f } := by
  obtain ⟨hf, hs, hn, hw, hquiet, hb⟩ := h
  obtain ⟨hwait, -, hs'⟩ := hs.submit (Nat.zero_le _) hu
  refine ⟨hf, hs', ?_, hw, hquiet, hb⟩
  show Numbered format _ ((x.link.toDevice.submit f).waiting.items.map Frame.payload) (q + 1)
  rw [hwait, List.map_append]
  exact hn.concat hq

theorem Sound.fresh {g : Geometry} {l : Link} (hl : Link.new g = .ok l) (channel : Nat) (format : WireFormat)
    (stall : Nat) (injections : Queue Words) : (fresh channel format stall injections l).Sound format 0 0 where
  reads := rfl
  stocked := .of_new (Link.lane_of_new hl .device) (Nat.zero_le _)
  numbered := by
    show Numbered format 0 l.toDevice.pending 0
    rw [show l.toDevice.pending = [] from Lane.pending_of_new (Link.lane_of_new hl .device)]
    rfl
  whole := trivial
  quiet := by simp [TransmitLine.fresh]
  books := ⟨trivial, rfl, by simp [TransmitLine.fresh]⟩

end TransmitLine

end Sim

end RadioStream
