import RadioStream.Proofs.Sim.Portions
import RadioStream.Proofs.Sim.Run
/-!
# Carrying out commands

A receive chain carries out commands that continue one another as one burst. The packets
that it sent and those that it still has to send are the packets for all counts
(`Running.sent`). `Carrying.proceeds` says that every move keeps this, and that it leaves
fewer steps to take once all is due. `Carrying.move` is the same for an exact clock, by which
all is due when it has passed the last tick.
-/

namespace RadioStream.Sim

open ReceiveChain

/-! ## Commands that continue one another -/

/-- What a command asks for. -/
def order (c : StreamCommand) : StreamMode × Nat := (c.mode, c.samples.toNat)

/-- The mode of a command with others behind it. -/
def modeBefore (after : List Nat) : StreamMode :=
  if after.isEmpty then .samplesAndDone else .samplesAndMore

/-- What commands for some counts ask for that continue one another. -/
def orders : List Nat → List (StreamMode × Nat)
  | [] => []
  | n :: ns => (modeBefore ns, n) :: orders ns

theorem orders_concat (ns : List Nat) (m : Nat) :
    orders (ns ++ [m]) = ns.map (.samplesAndMore, ·) ++ [(.samplesAndDone, m)] := by
  induction ns with
  | nil => rfl
  | cons n ns ih =>
    rw [List.cons_append, orders, ih, modeBefore, List.map_cons]
    simp

theorem isFixedCount_modeBefore (after : List Nat) : (modeBefore after).isFixedCount = true := by
  unfold modeBefore
  split <;> rfl

theorem isFixedCount_of_mem_orders {counts : List Nat} {o : StreamMode × Nat} (h : o ∈ orders counts) :
    o.1.isFixedCount = true := by
  induction counts with
  | nil => cases h
  | cons n ns ih =>
    rcases List.mem_cons.1 h with rfl | h
    · exact isFixedCount_modeBefore ns
    · exact ih h

/-! ## The invariant -/

/-- Counts of samples that a chain is to send, from a tick on. -/
structure Job where
  /-- Most samples in a packet. -/
  most : Nat
  counts : List Nat
  tick : Nat
  /-- The number of the first packet. -/
  sequence : UInt16
  most_pos : 0 < most
  /-- The burst begins with a sample. -/
  first_pos : ∃ n ∈ counts.head?, 0 < n

namespace Job

def packets (j : Job) : List DataPacket := burstPackets j.tick true j.sequence (sizes j.most j.counts)

/-- The tick after the last sample. -/
def stop (j : Job) : Nat := j.tick + j.counts.sum

theorem exists_cons (j : Job) : ∃ n after, j.counts = n :: after ∧ 0 < n := by
  obtain ⟨n, hn, hpos⟩ := j.first_pos
  obtain ⟨after, hc⟩ := List.head?_eq_some_iff.1 hn
  exact ⟨n, after, hc, hpos⟩

end Job

/-- How many steps a chain in a phase takes to send a packet that is due, if it can; zero
if it has something else to do first. -/
def ReceivePhase.lag : ReceivePhase → Nat
  | .produce => 1
  | .begin => 2
  | .report => 3
  | .listen => 4
  | .rest _ => 5
  | .finish _ | .breakOff _ | .stopped => 0

/-- A chain in the middle of a job: what it began, the counts that come after, the sizes
of the packets that are left and the packets sent. -/
structure Running (j : Job) (c : ReceiveChain) (b : Burst) (begun : List (StreamMode × Nat)) (after left : List Nat)
    (ps : List DataPacket) : Prop where
  burst : c.burst = some b
  ready : 0 < c.phase.lag
  mode : b.mode = modeBefore after
  split : orders j.counts = begun ++ orders after
  cut : left = portions j.most b.remaining ++ sizes j.most after
  ticks : b.nextTick + left.sum = j.stop
  sent : ps ++ burstPackets b.nextTick b.starts c.sequence left = j.packets

/-- How far a chain has come with a job: what it was asked, what it sent, and how many
steps it takes for the rest at most. -/
inductive Carries (j : Job) (c : ReceiveChain) : List (StreamMode × Nat) → List DataPacket → Nat → Prop
  | waiting : c.burst = none → 1 < c.phase.lag → c.sequence = j.sequence →
      Carries j c (c.commands.map order) [] (4 * (sizes j.most j.counts).length + c.phase.lag)
  | running {b : Burst} {begun : List (StreamMode × Nat)} {after left : List Nat} {ps : List DataPacket} :
      Running j c b begun after left ps →
      Carries j c (begun ++ c.commands.map order) ps (4 * left.length + c.phase.lag)
  | done : c.burst = none → c.commands = [] → 1 < c.phase.lag →
      Carries j c (orders j.counts) j.packets 0

/-- A chain that does a job, and owes no report. -/
structure Carrying (j : Job) (rate : Float) (c : ReceiveChain) (asked : List (StreamMode × Nat)) (ps : List DataPacket)
    (k : Nat) : Prop where
  samples : c.packetSamples = j.most
  rate : c.rate = rate
  calm : c.overflow = none
  carries : Carries j c asked ps k

/-- Nothing gets in the way of a step, as far as the clock can tell. -/
structure Clear (tick : Nat) (now : Reading) (c : ReceiveChain) (l : Link) : Prop where
  /-- The first command begins at the tick. -/
  begins : c.phase = .begin → c.burst = none → ∀ command ∈ c.commands.head?, c.startTick? now.tick command = some tick
  /-- There is a frame for a packet that is due. -/
  room : c.phase = .produce → ∀ b ∈ c.burst, now.left? (b.nextTick + b.count c.packetSamples) = some 0 →
    l.toHost.home.idle.items ≠ []

theorem clear_iff {tick : Nat} {now : Reading} {c : ReceiveChain} {l : Link} :
    Clear tick now c l ↔
      (c.phase = .begin → c.burst = none → ∀ command ∈ c.commands.head?,
        c.startTick? now.tick command = some tick) ∧
      (c.phase = .produce → ∀ b ∈ c.burst, now.left? (b.nextTick + b.count c.packetSamples) = some 0 →
        l.toHost.home.idle.items ≠ []) :=
  ⟨fun h => ⟨h.begins, h.room⟩, fun h => ⟨h.1, h.2⟩⟩

instance (tick : Nat) (now : Reading) (c : ReceiveChain) (l : Link) : Decidable (Clear tick now c l) :=
  decidable_of_iff _ clear_iff.symm

/-- Nothing gets in the way of a step, and a command to be continued is followed by another. -/
structure Smooth (tick : Nat) (now : Reading) (c : ReceiveChain) (l : Link) : Prop extends Clear tick now c l where
  /-- When a command to be continued runs out, the next one is there. -/
  followed : c.phase = .produce → ∀ b ∈ c.burst, now.left? (b.nextTick + b.count c.packetSamples) = some 0 →
    b.mode = .samplesAndMore → b.remaining ≤ c.packetSamples → c.commands ≠ []

theorem smooth_iff {tick : Nat} {now : Reading} {c : ReceiveChain} {l : Link} :
    Smooth tick now c l ↔ Clear tick now c l ∧
      (c.phase = .produce → ∀ b ∈ c.burst, now.left? (b.nextTick + b.count c.packetSamples) = some 0 →
        b.mode = .samplesAndMore → b.remaining ≤ c.packetSamples → c.commands ≠ []) :=
  ⟨fun h => ⟨h.toClear, h.followed⟩, fun h => ⟨h.1, h.2⟩⟩

instance (tick : Nat) (now : Reading) (c : ReceiveChain) (l : Link) : Decidable (Smooth tick now c l) :=
  decidable_of_iff _ smooth_iff.symm

/-! ## Packets -/

section Packets

variable {j : Job} {c : ReceiveChain} {b : Burst} {begun : List (StreamMode × Nat)} {after left : List Nat}
  {ps : List DataPacket}

namespace ReceiveChain

/-- The count goes on. -/
theorem advanced_more {n : Nat} (hfixed : b.mode.isFixedCount = true) (h : n < b.remaining) :
    c.advanced b n = { c with sequence := c.sequence + 1, phase := .listen, burst := some (b.sent n) } := by
  have hne : (b.sent n).remaining ≠ 0 := by
    simp only [Burst.sent, hfixed, if_true]
    omega
  unfold advanced
  dsimp only
  rw [if_pos]
  rw [Bool.or_eq_true, bne_iff_ne]
  exact .inr hne

/-- The count has run out, and the next command goes on. -/
theorem advanced_next (hmode : b.mode = .samplesAndMore) {command : StreamCommand} {commands : List StreamCommand}
    (hc : c.commands = command :: commands) :
    c.advanced b b.remaining = { c with
      sequence := c.sequence + 1, phase := .listen, commands,
      burst := some (.ofCommand command (b.nextTick + b.remaining) false) } := by
  unfold advanced
  simp [Burst.sent, hmode, hc, StreamMode.isFixedCount]

/-- The last count has run out. -/
theorem advanced_done (hmode : b.mode = .samplesAndDone) :
    c.advanced b b.remaining = { c with sequence := c.sequence + 1, phase := .listen, burst := none } := by
  unfold advanced
  simp [Burst.sent, hmode, StreamMode.isFixedCount]

end ReceiveChain

namespace Running

theorem isFixedCount (h : Running j c b begun after left ps) : b.mode.isFixedCount = true := by
  rw [h.mode]
  exact isFixedCount_modeBefore after

theorem count (h : Running j c b begun after left ps) : b.count j.most = min b.remaining j.most := by
  rw [Burst.count, if_pos h.isFixedCount]

/-- The next packet is the first of those that are left. -/
theorem step (h : Running j c b begun after left ps) (hn : c.packetSamples = j.most) {rest : List Nat}
    (hl : left = b.count j.most :: rest) (he : b.ends (b.count j.most) = rest.isEmpty) :
    ps ++ [c.packet b] ++ burstPackets (b.nextTick + b.count j.most) false (c.sequence + 1) rest = j.packets ∧
      b.nextTick + b.count j.most + rest.sum = j.stop := by
  constructor
  · rw [← h.sent, hl, burstPackets, ← he, List.append_assoc, packet, hn]
    rfl
  · rw [← h.ticks, hl, List.sum_cons, Nat.add_assoc]

/-- A full packet, with more of the same count behind it. -/
theorem more (h : Running j c b begun after left ps) (hn : c.packetSamples = j.most) (hlt : j.most < b.remaining) :
    ∃ rest, left = j.most :: rest ∧
      c.advanced b (b.count j.most) =
        { c with sequence := c.sequence + 1, phase := .listen, burst := some (b.sent j.most) } ∧
      Running j (c.advanced b (b.count j.most)) (b.sent j.most) begun after rest (ps ++ [c.packet b]) := by
  have hcount : b.count j.most = j.most := by rw [h.count, Nat.min_eq_right hlt.le]
  have hl := h.cut
  rw [portions_more j.most_pos hlt, List.cons_append] at hl
  have hends : b.ends (b.count j.most) = (portions j.most (b.remaining - j.most) ++ sizes j.most after).isEmpty := by
    rw [isEmpty_portions_append, Burst.ends, hcount, beq_eq_false_iff_ne.2 hlt.ne', Bool.and_false]
  have hstep := h.step hn (by rw [hcount]; exact hl) hends
  have hleft : (b.sent j.most).remaining = b.remaining - j.most := by rw [Burst.sent, if_pos h.isFixedCount]
  have hadvanced := ReceiveChain.advanced_more (c := c) h.isFixedCount hlt
  rw [hcount] at hstep ⊢
  refine ⟨_, hl, hadvanced, ?_⟩
  rw [hadvanced]
  exact ⟨rfl, show 0 < ReceivePhase.lag .listen by decide, h.mode, h.split, by rw [hleft], hstep.2, hstep.1⟩

/-- The last packet of a count. -/
theorem last (h : Running j c b begun after left ps) (hn : c.packetSamples = j.most) (hle : b.remaining ≤ j.most) :
    b.count j.most = b.remaining ∧ left = b.remaining :: sizes j.most after ∧
      ps ++ [c.packet b] ++ burstPackets (b.nextTick + b.remaining) false (c.sequence + 1) (sizes j.most after) =
        j.packets ∧
      b.nextTick + b.remaining + (sizes j.most after).sum = j.stop := by
  have hcount : b.count j.most = b.remaining := by rw [h.count, Nat.min_eq_left hle]
  have hl := h.cut
  rw [portions_last j.most_pos hle, List.singleton_append] at hl
  have hends : b.ends (b.count j.most) = (sizes j.most after).isEmpty := by
    rw [isEmpty_sizes, Burst.ends, hcount, beq_self_eq_true, Bool.and_true, h.mode, modeBefore]
    cases after <;> rfl
  have hstep := h.step hn (by rw [hcount]; exact hl) hends
  rw [hcount] at hstep
  exact ⟨hcount, hl, hstep⟩

/-- The next command goes on after the last packet of a count. -/
theorem next {n : Nat} (h : Running j c b begun (n :: after) left ps) (hn : c.packetSamples = j.most)
    (hle : b.remaining ≤ j.most) {command : StreamCommand} {commands : List StreamCommand}
    (ho : order command = (modeBefore after, n)) :
    Running j
      { c with
        sequence := c.sequence + 1, phase := .listen, commands,
        burst := some (.ofCommand command (b.nextTick + b.remaining) false) }
      (.ofCommand command (b.nextTick + b.remaining) false) (begun ++ [order command]) after (sizes j.most (n :: after))
      (ps ++ [c.packet b]) := by
  obtain ⟨-, -, hsent, hticks⟩ := h.last hn hle
  have hleft : sizes j.most (n :: after) = portions j.most command.samples.toNat ++ sizes j.most after := by
    rw [sizes_cons, show command.samples.toNat = n from congrArg Prod.snd ho]
  have hsplit : orders j.counts = begun ++ [order command] ++ orders after := by
    rw [h.split, orders, ho, List.append_assoc]
    rfl
  exact ⟨rfl, show 0 < ReceivePhase.lag .listen by decide, congrArg Prod.fst ho, hsplit, hleft, hticks, hsent⟩

end Running

end Packets

/-! ## Steps -/

section Steps

variable {j : Job} {c : ReceiveChain} {asked : List (StreamMode × Nat)}
  {ps : List DataPacket} {k : Nat}

/-- A chain that needs no more steps has sent all. -/
theorem Carries.finished (h : Carries j c asked ps 0) :
    c.burst = none ∧ c.commands = [] ∧ ps = j.packets := by
  generalize hk : 0 = k at h
  cases h with
  | waiting => omega
  | running h =>
    have hready := h.ready
    omega
  | done hb hc => exact ⟨hb, hc, rfl⟩

theorem ReceivePhase.lag_le (p : ReceivePhase) : p.lag ≤ 5 := by
  cases p <;> simp only [lag] <;> omega

theorem Carries.le (h : Carries j c asked ps k) : k ≤ 4 * (sizes j.most j.counts).length + 5 := by
  have hlag := c.phase.lag_le
  cases h with
  | waiting => omega
  | running h =>
    have hlen := congrArg List.length h.sent
    rw [Job.packets, List.length_append, length_burstPackets, length_burstPackets] at hlen
    omega
  | done => omega

/-- There is a burst where packets are sent. -/
theorem Carries.ready (h : Carries j c asked ps k) :
    0 < c.phase.lag ∧ (c.burst = none → 1 < c.phase.lag) := by
  cases h with
  | waiting _ hlag => exact ⟨by omega, fun _ => hlag⟩
  | running h => exact ⟨h.ready, fun hn => by cases h.burst.symm.trans hn⟩
  | done _ _ hlag => exact ⟨by omega, fun _ => hlag⟩

theorem Carries.exists_running (h : Carries j c asked ps k) {b : Burst} (hb : c.burst = some b) :
    ∃ begun after left, Running j c b begun after left ps ∧ asked = begun ++ c.commands.map order ∧
      k = 4 * left.length + c.phase.lag := by
  cases h with
  | waiting hn => cases hb.symm.trans hn
  | done hn => cases hb.symm.trans hn
  | running h =>
    cases h.burst.symm.trans hb
    exact ⟨_, _, _, h, rfl, rfl⟩

/-- The next packet does not go past the last tick. -/
theorem Carries.due (h : Carries j c asked ps k) {b : Burst} (hb : c.burst = some b) :
    b.nextTick + b.count j.most ≤ j.stop := by
  obtain ⟨begun, after, left, hr, -, -⟩ := h.exists_running hb
  have hticks := hr.ticks
  rw [hr.cut, List.sum_append, sum_portions] at hticks
  rw [hr.count]
  omega

/-- A chain may turn to something else. If that is closer to the next packet, so is the
chain. -/
theorem Carries.goTo (h : Carries j c asked ps k) {phase : ReceivePhase} (hpos : 0 < phase.lag)
    (hidle : c.burst = none → 1 < phase.lag) :
    ∃ k', Carries j (c.goTo phase) asked ps k' ∧ (phase.lag < c.phase.lag → k' ≤ k - 1) := by
  cases h with
  | waiting hb _ hq =>
    refine ⟨_, .waiting hb (hidle hb) hq, fun hlt => ?_⟩
    simp only [ReceiveChain.goTo]
    omega
  | running h =>
    refine ⟨_, .running { h with ready := hpos }, fun hlt => ?_⟩
    simp only [ReceiveChain.goTo]
    omega
  | done hb hc => exact ⟨_, .done hb hc (hidle hb), fun _ => Nat.zero_le _⟩

/-- A command that comes in is kept for later. -/
theorem Carries.handle (h : Carries j c asked ps k) {command : StreamCommand}
    (hp : asked ++ [order command] <+: orders j.counts) :
    ∃ k', Carries j (c.handle command) (asked ++ [order command]) ps k' := by
  have hfixed : command.mode.isFixedCount = true :=
    isFixedCount_of_mem_orders (hp.subset (List.mem_append_right _ (List.mem_singleton_self _)))
  have hstop : command.mode ≠ .stopContinuous := by
    intro hm
    rw [hm] at hfixed
    cases hfixed
  have hkeep (hb : c.burst.any (·.mode == .startContinuous) = false) :
      c.handle command = { c with commands := c.commands ++ [command], phase := .listen } := by
    rw [ReceiveChain.handle, if_neg hstop, hb]
    rfl
  have hmap : (c.commands ++ [command]).map order = c.commands.map order ++ [order command] := List.map_append
  cases h with
  | waiting hb _ hq =>
    rw [hkeep (by rw [hb]; rfl), ← hmap]
    exact ⟨_, .waiting hb (show 1 < ReceivePhase.lag .listen by decide) hq⟩
  | @running b begun after left ps h =>
    have hf := h.isFixedCount
    have hany : c.burst.any (·.mode == .startContinuous) = false := by
      rw [h.burst, Option.any_some, beq_eq_false_iff_ne]
      intro hm
      rw [hm] at hf
      cases hf
    rw [hkeep hany, List.append_assoc, ← hmap]
    exact ⟨_, .running { h with ready := show 0 < ReceivePhase.lag .listen by decide }⟩
  | done =>
    have hlen := hp.length_le
    rw [List.length_append, List.length_singleton] at hlen
    omega

/-- The first command begins the burst. -/
theorem Carries.start (h : Carries j c asked ps k) (hp : asked <+: orders j.counts) (hphase : c.phase = .begin)
    (hb : c.burst = none) {command : StreamCommand} {commands : List StreamCommand}
    (hc : c.commands = command :: commands) :
    ∃ k', Carries j (ReceiveChain.start { c with commands } command j.tick) asked ps k' ∧ k' ≤ k - 1 := by
  cases h with
  | running h => cases h.burst.symm.trans hb
  | done _ hc' => cases hc.symm.trans hc'
  | waiting _ _ hq =>
    obtain ⟨n, after, hcounts, hpos⟩ := j.exists_cons
    rw [hc, List.map_cons] at hp ⊢
    rw [hcounts, orders, List.cons_prefix_cons] at hp
    have hn : command.samples.toNat = n := congrArg Prod.snd hp.1
    -- the first count is not zero, so there is a burst
    have hstart : ReceiveChain.start { c with commands } command j.tick =
        { c with commands, burst := some (.ofCommand command j.tick true), phase := .produce } := by
      rw [ReceiveChain.start, if_neg]
      rw [Bool.and_eq_true, not_and, beq_iff_eq]
      intro _ hz
      rw [hz] at hn
      change 0 = n at hn
      omega
    have hrunning : Running j
        { c with commands, burst := some (.ofCommand command j.tick true), phase := .produce }
        (.ofCommand command j.tick true) [order command] after (sizes j.most j.counts) [] := by
      refine ⟨rfl, show 0 < ReceivePhase.lag .produce by decide, congrArg Prod.fst hp.1, ?_, ?_, ?_, ?_⟩
      · rw [hcounts, orders, hp.1]
        rfl
      · rw [hcounts, sizes_cons, ← hn]
        rfl
      · rw [sum_sizes]
        rfl
      · rw [hq]
        rfl
    rw [hstart]
    refine ⟨_, .running hrunning, ?_⟩
    simp only [hphase, ReceivePhase.lag]
    omega

/-- A packet is sent. -/
theorem Carries.sent (h : Carries j c asked ps k) (hn : c.packetSamples = j.most)
    (hp : asked <+: orders j.counts) (hphase : c.phase = .produce) {b : Burst} (hb : c.burst = some b)
    (hfollowed : b.mode = .samplesAndMore → b.remaining ≤ j.most → c.commands ≠ []) :
    ∃ k', Carries j (c.advanced b (b.count j.most)) asked (ps ++ [c.packet b]) k' ∧ k' ≤ k - 1 := by
  have hlag : c.phase.lag = 1 := by rw [hphase]; rfl
  obtain ⟨begun, after, left, hr, rfl, rfl⟩ := h.exists_running hb
  rcases Nat.lt_or_ge j.most b.remaining with hlt | hle
  · obtain ⟨rest, rfl, hadvanced, hr'⟩ := hr.more hn hlt
    have hc := Carries.running hr'
    rw [hadvanced] at hc ⊢
    refine ⟨_, hc, ?_⟩
    rw [hlag, List.length_cons]
    exact Nat.le_refl _
  · obtain ⟨hcount, hl, hsent, -⟩ := hr.last hn hle
    have hqueue : c.commands.map order <+: orders after := by
      rw [hr.split] at hp
      exact (List.prefix_append_right_inj begun).1 hp
    rw [hcount]
    cases after with
    | nil =>
      -- the burst is over
      have hc : c.commands = [] := by simpa [orders] using hqueue
      have hasked : begun ++ c.commands.map order = orders j.counts := by rw [hr.split, hc]; rfl
      have hall : ps ++ [c.packet b] = j.packets := by
        rw [← hsent]
        exact (List.append_nil _).symm
      rw [ReceiveChain.advanced_done hr.mode, hasked, hall]
      exact ⟨0, .done rfl hc (show 1 < ReceivePhase.lag .listen by decide), Nat.zero_le _⟩
    | cons n after =>
      obtain ⟨command, commands, hc⟩ := List.exists_cons_of_ne_nil (hfollowed hr.mode hle)
      rw [hc, List.map_cons, orders, List.cons_prefix_cons] at hqueue
      have hasked : begun ++ c.commands.map order = begun ++ [order command] ++ commands.map order := by
        rw [hc, List.append_assoc]
        rfl
      rw [ReceiveChain.advanced_next hr.mode hc, hasked]
      refine ⟨_, .running (hr.next hn hle hqueue.1), ?_⟩
      rw [hlag, hl, List.length_cons]
      exact Nat.le_refl _

/-- Nothing was asked yet, or all is sent. -/
theorem Carries.idle (h : Carries j c asked ps k) (hb : c.burst = none) (hc : c.commands = []) :
    ∃ k', Carries j (c.goTo .listen) asked ps k' ∧ (asked = orders j.counts → k' = 0) := by
  have hlisten : 1 < ReceivePhase.lag .listen := by decide
  cases h with
  | waiting _ _ hq =>
    refine ⟨_, .waiting hb hlisten hq, fun hall => ?_⟩
    obtain ⟨n, after, hcounts, -⟩ := j.exists_cons
    rw [hc, hcounts] at hall
    cases hall
  | running h => cases h.burst.symm.trans hb
  | done => exact ⟨0, .done hb hc hlisten, fun _ => rfl⟩

/-! ## Moves -/

/-- What a move of a chain that carries out commands comes to: the commands that it
takes are carried out too and it sends only data packets. When all was asked and all is
due, fewer steps are left. -/
def Proceeds (j : Job) (rate : Float) (due : Prop) (asked : List (StreamMode × Nat)) (ps : List DataPacket) (k : Nat)
    (heard : List Bytes) (said : List Emission) (c' : ReceiveChain) : Prop :=
  ∃ qs k', said = qs.map .data ∧
    Carrying j rate c' (asked ++ (heard.filterMap (command? rate)).map order) (ps ++ qs) k' ∧
    (asked = orders j.counts → due → k' ≤ k - 1)

section Move

variable {rate : Float} {now : Reading} {due : Prop} {l : Link} {heard : List Bytes} {said : List Emission}
  {c' : ReceiveChain}

/-- Nothing is taken or sent. -/
theorem Carrying.quiet (h : Carrying j rate c asked ps k) (hm : Move now c l heard [] c')
    (hnone : heard.filterMap (command? rate) = []) (hcalm : c'.overflow = none)
    (hc : ∃ k', Carries j c' asked ps k' ∧ (asked = orders j.counts → due → k' ≤ k - 1)) :
    Proceeds j rate due asked ps k heard [] c' := by
  obtain ⟨-, hrate, hsamples⟩ := hm.fixed
  obtain ⟨k', hc, hk⟩ := hc
  refine ⟨[], k', rfl, ⟨hsamples.trans h.samples, hrate.trans h.rate, hcalm, ?_⟩, hk⟩
  rw [hnone, List.map_nil, List.append_nil, List.append_nil]
  exact hc

/-- The chain turns to what comes before the next packet. -/
theorem Carrying.closer (h : Carrying j rate c asked ps k) {phase : ReceivePhase}
    (hm : Move now c l heard [] (c.goTo phase)) (hnone : heard.filterMap (command? rate) = [])
    (hpos : 0 < phase.lag) (hidle : c.burst = none → 1 < phase.lag) (hlt : phase.lag < c.phase.lag) :
    Proceeds j rate due asked ps k heard [] (c.goTo phase) := by
  obtain ⟨k', hc, hk⟩ := h.carries.goTo hpos hidle
  exact h.quiet hm hnone h.calm ⟨k', hc, fun _ _ => hk hlt⟩

/-- A command comes in. -/
theorem Carrying.handle (h : Carrying j rate c asked ps k) {f : Bytes} {command : StreamCommand}
    (hm : Move now c l [f] [] (c.handle command)) (hf : command? rate f = some command)
    (hp : asked ++ ([f].filterMap (command? rate)).map order <+: orders j.counts) :
    Proceeds j rate due asked ps k [f] [] (c.handle command) := by
  obtain ⟨-, hrate, hsamples⟩ := hm.fixed
  have hfs : [f].filterMap (command? rate) = [command] := by rw [List.filterMap_cons_some hf, List.filterMap_nil]
  rw [hfs] at hp
  obtain ⟨k', hc⟩ := h.carries.handle hp
  refine ⟨[], k', rfl, ⟨hsamples.trans h.samples, hrate.trans h.rate, ?_, ?_⟩, fun hall => ?_⟩
  · exact (c.handle_keeps command).2.2.2.2.trans h.calm
  · rw [hfs, List.append_nil]
    exact hc
  · -- there is no further command once all was asked
    have hlen := hp.length_le
    rw [hall, List.length_append, List.map_singleton, List.length_singleton] at hlen
    omega

variable (due) in
/-- Where nothing gets in the way, every move carries on, unless the clock cannot tell the
time left and the chain ends. -/
theorem Carrying.proceeds (h : Carrying j rate c asked ps k) (hopen : l.closed = false) (hs : Smooth j.tick now c l)
    (hdue : due → ∀ tick ≤ j.stop, now.left? tick = some 0)
    (hm : Move now c l heard said c') (hp : asked ++ (heard.filterMap (command? rate)).map order <+: orders j.counts) :
    Proceeds j rate due asked ps k heard said c' ∨
      (c' = c.goTo .stopped ∧ ∃ b, c.burst = some b ∧ now.left? (b.nextTick + b.count c.packetSamples) = none) := by
  obtain ⟨hpos, hidle⟩ := h.carries.ready
  have hasked := (List.prefix_append _ _).trans hp
  have hm' := hm
  cases hm with
  | timeless _ hb ht => exact .inr ⟨rfl, _, hb, ht⟩
  | closed _ hc => cases hopen.symm.trans hc
  | heard _ hf =>
    rw [h.rate] at hf
    exact .inl (h.handle hm' hf hp)
  | unheard hphase _ hnone =>
    rw [h.rate] at hnone
    have hlag : ReceivePhase.lag .report < c.phase.lag := by rw [hphase]; decide
    exact .inl (h.closer hm' (List.filterMap_eq_nil_iff.2 hnone) (by decide) (fun _ => by decide) hlag)
  | settled hphase => exact .inl (h.closer hm' rfl (by decide) (fun _ => by decide) (by rw [hphase]; decide))
  | reported _ ho => cases h.calm.symm.trans ho
  | unreported _ ho => cases h.calm.symm.trans ho
  | goOn hphase hb =>
    exact .inl (h.closer hm' rfl (by decide) (fun hn => by cases hb.symm.trans hn) (by rw [hphase]; decide))
  | idle _ hb hc =>
    obtain ⟨k', hk, hzero⟩ := h.carries.idle hb hc
    refine .inl (h.quiet hm' rfl h.calm ⟨k', hk, fun hall _ => ?_⟩)
    rw [hzero hall]
    exact Nat.zero_le _
  | untiled _ _ _ _ hz =>
    exact absurd (h.samples.symm.trans hz) j.most_pos.ne'
  | begin hphase hb hc _ ht =>
    have hbegins := hs.begins hphase hb _ (by rw [hc]; rfl)
    rw [ht, Option.some.injEq] at hbegins
    subst hbegins
    obtain ⟨k', hk, hle⟩ := h.carries.start hasked hphase hb hc
    exact .inl (h.quiet hm' rfl ((start_keeps _ _ _).2.2.2.2.trans h.calm) ⟨k', hk, fun _ _ => hle⟩)
  | late hphase hb hc ht =>
    have hbegins := hs.begins hphase hb _ (by rw [hc]; rfl)
    cases ht.symm.trans hbegins
  | unburst hphase hb =>
    have hlag := hidle hb
    rw [hphase] at hlag
    exact absurd hlag (by decide)
  | @early b time hphase hb ht =>
    have hrest : 1 < ReceivePhase.lag (.rest (min (time + 1) poll)) := Nat.one_lt_succ_succ 3
    obtain ⟨k', hk, -⟩ := h.carries.goTo (Nat.zero_lt_of_lt hrest) fun _ => hrest
    refine .inl (h.quiet hm' rfl h.calm ⟨k', hk, fun _ hpast => ?_⟩)
    -- the packet is due with all others
    have hstop := h.carries.due hb
    rw [← h.samples] at hstop
    cases (hdue hpast _ hstop).symm.trans ht
  | @sent b hphase hb ht =>
    have hnext := hs.followed hphase b hb ht
    rw [h.samples] at hnext
    obtain ⟨-, hrate, hsamples⟩ := hm'.fixed
    obtain ⟨k', hk, hle⟩ := h.carries.sent h.samples hasked hphase hb hnext
    refine .inl ⟨[c.packet b], k', rfl, ⟨hsamples.trans h.samples, hrate.trans h.rate, ?_, ?_⟩, fun _ _ => hle⟩
    · exact (c.advanced_keeps b _).2.2.2.1.trans h.calm
    · rw [List.filterMap_nil, List.map_nil, List.append_nil, h.samples]
      exact hk
  | missed hphase hb ht hi => exact absurd hi (hs.room hphase _ hb ht)
  | finished hphase => exact absurd hpos (by rw [hphase]; exact Nat.lt_irrefl 0)
  | abandoned hphase => exact absurd hpos (by rw [hphase]; exact Nat.lt_irrefl 0)
  | stalled hphase => exact absurd hpos (by rw [hphase]; exact Nat.lt_irrefl 0)
  | brokeOff hphase => exact absurd hpos (by rw [hphase]; exact Nat.lt_irrefl 0)
  | rested hphase =>
    refine .inl (h.closer hm' rfl (by decide) (fun _ => by decide) ?_)
    rw [hphase]
    exact Nat.lt_succ_self 4
  | stopped hphase => exact absurd hpos (by rw [hphase]; exact Nat.lt_irrefl 0)

/-- An exact clock can tell the time left, and all is due when it has passed the last tick. -/
theorem Carrying.move (h : Carrying j rate c asked ps k)
    (hexact : now.Exact) (hopen : l.closed = false) (hs : Smooth j.tick now c l)
    (hm : Move now c l heard said c') (hp : asked ++ (heard.filterMap (command? rate)).map order <+: orders j.counts) :
    Proceeds j rate (j.stop ≤ now.tick) asked ps k heard said c' := by
  have hdue : j.stop ≤ now.tick → ∀ tick ≤ j.stop, now.left? tick = some 0 := by
    intro hpast tick ht
    obtain ⟨time, hleft, hz⟩ := hexact.left tick
    rw [hleft, hz.2 (ht.trans hpast)]
  rcases h.proceeds (j.stop ≤ now.tick) hopen hs hdue hm hp with hmove | ⟨-, b, -, hnone⟩
  · exact hmove
  · obtain ⟨time, hleft, -⟩ := hexact.left (b.nextTick + b.count c.packetSamples)
    cases hleft.symm.trans hnone

end Move

end Steps

end RadioStream.Sim
