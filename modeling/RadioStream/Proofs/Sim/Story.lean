import RadioStream.Proofs.Lists
import RadioStream.Proofs.Sim.Endings
/-!
# What happens at a station

The story of a run tells in their order the things that the rules about bursts and
overflows speak of: that a burst begins, is broken off or loses a packet, and what the
chain puts on the link, as the host can read it. `Station.moments_keep` is the
induction along a run for what is said of the story and of the moments it is told by.
-/

namespace RadioStream.Sim

open ReceiveChain

/-- What happens at a step of a receive chain. -/
inductive Happening where
  /-- A command begins a burst, if only one of no samples. -/
  | began
  /-- The burst is to end with an empty packet: it is stopped or has no samples. -/
  | stopped
  /-- A packet of the burst found no frame. A burst that resumes starts anew. -/
  | skipped (resumes : Bool)
  /-- A packet is put on the link. -/
  | sent (i : Incoming)

namespace Happening

/-- Whether a burst begins, or begins anew. -/
def begins : Happening → Bool
  | began | skipped true => true
  | stopped | skipped false | sent _ => false

/-- The data packet that is put on the link: its header and how many samples it has. -/
def data? : Happening → Option (Header × Nat)
  | sent (.data h n) => some (h, n)
  | _ => none

/-- Whether a packet finds no frame. -/
def isSkip : Happening → Bool
  | skipped _ => true
  | _ => false

/-- Whether a burst is to end with an empty packet. -/
def isStop : Happening → Bool
  | stopped => true
  | _ => false

/-- Whether an overflow is reported. -/
def isOverflow : Happening → Bool
  | sent (.status .overflow _) => true
  | _ => false

end Happening

/-- Each data packet stands in a relation to what happened before it. -/
def Packetwise (R : List Happening → Header × Nat → Prop) (s : List Happening) : Prop :=
  ∀ before h after p, s = before ++ h :: after → h.data? = some p → R before p

section Packetwise

variable {R : List Happening → Header × Nat → Prop} {s hs : List Happening} {h : Happening}

theorem packetwise_nil : Packetwise R [] := fun before h after p he => absurd he (by simp)

theorem packetwise_concat : Packetwise R (s ++ [h]) ↔ Packetwise R s ∧ ∀ p, h.data? = some p → R s p := by
  constructor
  · intro hs
    refine ⟨fun before k after p he => hs before k (after ++ [h]) p (by simp [he]), fun p => hs s h [] p rfl⟩
  · rintro ⟨hs, hp⟩ before k after p he
    rcases concat_eq_append_cons_iff.1 he with ⟨-, rfl, rfl⟩ | ⟨front, -, rfl⟩
    · exact hp p
    · exact hs before k front p rfl

/-- What is no data packet makes no difference. -/
theorem packetwise_append (hq : ∀ k ∈ hs, k.data? = none) : Packetwise R (s ++ hs) ↔ Packetwise R s := by
  induction hs using List.reverseRecOn with
  | nil => rw [List.append_nil]
  | append_singleton hs k ih =>
    rw [List.forall_mem_append, List.forall_mem_singleton] at hq
    rw [← List.append_assoc, packetwise_concat, ih hq.1, hq.2]
    simp

/-- Position by position. -/
theorem packetwise_iff_getElem :
    Packetwise R s ↔ ∀ i (hi : i < s.length), ∀ p ∈ s[i].data?, R (s.take i) p := by
  constructor
  · intro h i hi p hp
    refine h _ _ (s.drop (i + 1)) p ?_ hp
    rw [← List.drop_eq_getElem_cons hi, List.take_append_drop]
  · rintro h before k after p rfl hp
    have hi : before.length < (before ++ k :: after).length := by simp
    have hk : (before ++ k :: after)[before.length] = k := by simp
    have := h before.length hi p (by rw [hk]; exact hp)
    rwa [List.take_left] at this

instance [∀ before p, Decidable (R before p)] : Decidable (Packetwise R s) :=
  decidable_of_iff _ packetwise_iff_getElem.symm

end Packetwise

/-! ## One step -/

namespace ReceiveChain

/-- What happens at a step beside what is sent. -/
def happenings (now : Reading) (c : ReceiveChain) (l : Link) (heard : List Bytes) : List Happening :=
  match c.phase, c.burst with
  | .listen, some _ =>
    if heard.any fun f => (command? c.rate f).any (·.mode == .stopContinuous) then [.stopped] else []
  | .begin, none => match c.commands with
    | [] => []
    | command :: _ =>
      if command.immediate && c.packetSamples == 0 then []
      else match c.startTick? now.tick command with
        | none => []
        | some _ =>
          if command.mode == .samplesAndDone && command.samples == 0 then [.began, .stopped] else [.began]
  | .produce, some b =>
    if now.left? (b.nextTick + b.count c.packetSamples) = some 0 ∧ l.toHost.home.idle.items.isEmpty = true then
      [.skipped !b.mode.isFixedCount]
    else []
  | _, _ => []

section Happenings

variable {now : Reading} {c : ReceiveChain} {l : Link} {heard : List Bytes} {b : Burst} {f : Bytes}
  {command : StreamCommand}

theorem happenings_produce (hp : c.phase = .produce) (hb : c.burst = some b) :
    happenings now c l heard =
      if now.left? (b.nextTick + b.count c.packetSamples) = some 0 ∧ l.toHost.home.idle.items.isEmpty = true then
        [.skipped !b.mode.isFixedCount]
      else [] := by
  unfold happenings
  rw [hp, hb]

theorem happenings_stop (hp : c.phase = .listen)
    (hb : c.burst = some b) (hf : command? c.rate f = some command) (hm : command.mode = .stopContinuous) :
    happenings now c l [f] = [.stopped] := by
  simp [happenings, hp, hb, hf, hm]

theorem happenings_unheard (hp : c.phase = .listen) (hn : ∀ f ∈ heard, command? c.rate f = none) :
    happenings now c l heard = [] := by
  cases hb : c.burst with
  | none => simp [happenings, hp, hb]
  | some b =>
    have hany : (heard.any fun f => (command? c.rate f).any (·.mode == .stopContinuous)) = false :=
      List.any_eq_false.2 fun f hf => by simp [hn f hf]
    simp [happenings, hp, hb, hany]

theorem happenings_heard (hp : c.phase = .listen) (hf : command? c.rate f = some command)
    (hs : ¬(command.mode = .stopContinuous ∧ c.burst.isSome = true)) : happenings now c l [f] = [] := by
  cases hb : c.burst with
  | none => simp [happenings, hp, hb]
  | some b =>
    have hm : command.mode ≠ .stopContinuous := fun hm => hs ⟨hm, by simp [hb]⟩
    simp [happenings, hp, hb, hf, hm]

theorem happenings_begin {commands : List StreamCommand} {tick : Nat} (hp : c.phase = .begin) (hb : c.burst = none)
    (hc : c.commands = command :: commands) (hpos : command.immediate = true → 0 < c.packetSamples)
    (ht : c.startTick? now.tick command = some tick) :
    happenings now c l heard =
      if command.mode == .samplesAndDone && command.samples == 0 then [.began, .stopped] else [.began] := by
  have hz : (command.immediate && c.packetSamples == 0) = false := by
    cases hi : command.immediate with
    | false => rfl
    | true => simpa using (hpos hi).ne'
  unfold happenings
  rw [hp, hb, hc]
  dsimp only
  rw [hz, ht]
  rfl

end Happenings

/-- What the host can read of some emissions. -/
def readable (format : WireFormat) (said : List Emission) : List Happening :=
  said.map fun e => .sent (Incoming.ofFrame format (e.bytes format))

@[simp] theorem readable_nil (format : WireFormat) : readable format [] = [] := rfl

theorem readable_status (format : WireFormat) (code : RxCode) (tick : Nat) :
    readable format [.status code tick] = [.sent (report code tick)] := by
  rw [readable, List.map_singleton, Emission.bytes, ofFrame_statusBytes]

/-- The length of a packet is written into its header. -/
theorem readable_data (format : WireFormat) {p : DataPacket} (hk : p.header.kind = .data) :
    ∃ n, readable format [.data p] =
      [.sent (.data { p.header with payloadLength := UInt32.ofNat (p.samples.length * format.sampleBytes) } n)] := by
  obtain ⟨n, hn⟩ := Incoming.ofFrame_bytes format p.samples hk
  exact ⟨n, by rw [readable, List.map_singleton, Emission.bytes, hn]⟩

theorem readable_closing (format : WireFormat) (c : ReceiveChain) (tick : Nat) :
    readable format [.data (c.closing tick)] =
      [.sent (.data { (c.closing tick).header with payloadLength := 0 } 0)] := by
  have hp := @DataPacket.ofFrame?_bytes format (c.closing tick).header [] rfl format.payloadFits_zero
  have hi := Incoming.ofFrame_eq_data_iff.2 ⟨_, hp, List.length_map _⟩
  rw [readable, List.map_singleton, Emission.bytes]
  simp only [List.length_nil, Nat.zero_mul] at hi
  exact congrArg (fun i => [Happening.sent i]) hi

end ReceiveChain

/-! ## Runs -/

namespace Station

/-- What happens at a step. -/
def happenings (x : Station) (now : Reading) : List Happening :=
  ReceiveChain.happenings now x.chain x.link ((x.tick now).heard.drop x.heard.length) ++
    ((x.tick now).log.drop x.log.length).map fun e => .sent (Incoming.ofFrame x.chain.format e.2)

/-- What happens at some steps. -/
def tell (ms : List (Station × Reading)) : List Happening := ms.flatMap fun m => m.1.happenings m.2

/-- What happens in a run. -/
def story (x : Station) (as : List StationAction) : List Happening := tell (x.moments as)

theorem tell_concat (ms : List (Station × Reading)) (x : Station) (now : Reading) :
    tell (ms ++ [(x, now)]) = tell ms ++ x.happenings now := by
  rw [tell, List.flatMap_append, List.flatMap_singleton]
  rfl

variable {room : Nat} {x : Station} {es : List (Nat × Emission)}

/-- A step of the chain, with what happens at it. -/
theorem Logged.happens (h : x.Logged room es) (now : Reading) :
    ∃ heard said, Move now x.chain x.link heard said (x.tick now).chain ∧
      (x.tick now).Logged room (es ++ said.map (now.tick, ·)) ∧
      x.happenings now = ReceiveChain.happenings now x.chain x.link heard ++ readable x.chain.format said := by
  obtain ⟨heard, said, hm, hh, hl, -⟩ := h.tick now
  refine ⟨heard, said, hm, hl, ?_⟩
  rw [happenings, hh, h.log_tick hl hm.fixed.1, List.drop_left, List.drop_left, List.map_map, readable]
  rfl

/-- What every move keeps of the moments before it, every run keeps. -/
theorem moments_keep {I : List (Station × Reading) → ReceiveChain → Prop}
    (hI : ∀ {ms : List (Station × Reading)} {x : Station} {now heard said c'},
      x.link.toHost.Stocked room 0 x.kept → Move now x.chain x.link heard said c' →
      x.happenings now = ReceiveChain.happenings now x.chain x.link heard ++ readable x.chain.format said →
      I ms x.chain → I (ms ++ [(x, now)]) c')
    (ms : List (Station × Reading)) (h : x.Logged room es) (hi : I ms x.chain) (as : List StationAction) :
    I (ms ++ x.moments as) (x.run as).chain := by
  induction as generalizing x es ms with
  | nil =>
    rw [moments, List.append_nil]
    exact hi
  | cons a as ih =>
    rw [moments, ← List.append_assoc]
    cases ha : a.reading? with
    | none =>
      obtain ⟨hc, -, hl, -⟩ := h.host ha
      rw [Option.toList_none, List.map_nil, List.append_nil]
      exact ih ms hl (hc ▸ hi)
    | some now =>
      cases a with
      | chain now' =>
        cases ha
        obtain ⟨heard, said, hm, hl, hh⟩ := h.happens now
        exact ih _ hl (hI h.stocked hm hh hi)
      | post | take | release | close => cases ha

end Station

end RadioStream.Sim
