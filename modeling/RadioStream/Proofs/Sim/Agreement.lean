import RadioStream.Proofs.Sim.Downlink
import RadioStream.Proofs.Sim.Endings
/-!
# What a receiver makes of its chain

A receiver knows what it has asked for and what it was sent since, and the chain goes its
own ways: it drops commands, ends streams and may leave a report for later. `Agrees` says
when the state that a receiver comes to, once it has dealt with all that is on its way to
it, is right about what is left to do at the chain, with the commands on their way to the
chain. `Move.turned` says what a move of the chain means for that.
-/

namespace RadioStream

namespace StreamState

/-- What a state tells of a stream: whether it goes on until a stop. -/
def kind : StreamState → Option Bool
  | .idle => none
  | .streaming m => some (m == .startContinuous)

/-- Whether a packet ends the stream. -/
def ends (s : StreamState) (i : Incoming) : Bool := s.meets i != s

variable {s s' : StreamState} {i : Incoming}

theorem kind_eq_none : s.kind = none ↔ s = .idle := by
  cases s <;> simp [kind]

theorem ends_idle (i : Incoming) : StreamState.idle.ends i = false := by
  cases i with
  | data => simp [ends, meets]
  | status code => cases code <;> rfl
  | malformed => rfl

theorem ends_data (h : Header) (n : Nat) (m : StreamMode) :
    (StreamState.streaming m).ends (.data h n) = h.endOfBurst := by
  cases hb : h.endOfBurst <;> simp [ends, meets, hb]

theorem meets_idle_or (s : StreamState) (i : Incoming) : s.meets i = .idle ∨ s.meets i = s := by
  cases i with
  | data h n => exact ite_eq_or_eq _ _ _
  | status code tick =>
    cases code with
    | overflow => exact (ite_eq_or_eq (s = .streaming .startContinuous) s .idle).symm
    | lateCommand | brokenChain => exact .inl rfl
    | _ => exact .inr rfl
  | malformed => exact .inr rfl

theorem meets_eq (s : StreamState) (i : Incoming) : s.meets i = if s.ends i then .idle else s := by
  by_cases he : s.meets i = s
  · have hn : s.ends i = false := by rw [ends, he, bne_self_eq_false]
    rw [hn]
    exact he
  · have hy : s.ends i = true := bne_iff_ne.2 he
    rw [hy]
    exact (s.meets_idle_or i).resolve_right he

/-- States of one kind are ended by the same packets. -/
theorem ends_congr (h : s.kind = s'.kind) (i : Incoming) : s.ends i = s'.ends i := by
  cases s with
  | idle => rw [kind_eq_none.1 h.symm]
  | streaming m =>
    cases s' with
    | idle => cases h
    | streaming m' =>
      cases i with
      | data g n => rw [ends_data, ends_data]
      | status code tick => cases code <;> cases m <;> cases m' <;> first | rfl | cases h
      | malformed => simp [ends, meets]

theorem foldl_meets (s : StreamState) (is : List Incoming) :
    is.foldl meets s = if is.any s.ends then .idle else s := by
  induction is generalizing s with
  | nil => rfl
  | cons i is ih =>
    rw [List.foldl_cons, ih, meets_eq, List.any_cons]
    cases he : s.ends i with
    | true => simp [ends_idle]
    | false => simp

end StreamState

namespace Sim

/-! ## Agreement -/

/-- The state is right about the commands at the chain and those on their way to it. -/
structure Agrees (state : StreamState) (queued ahead : List StreamMode) : Prop where
  /-- Nothing follows a stop but stops. -/
  order : ahead.Pairwise fun m m' => m = .stopContinuous → m' = .stopContinuous
  halted : .stopContinuous ∈ ahead → state = .idle
  rest : queued ++ ahead = [] → state = .idle
  running : .stopContinuous ∉ ahead → ∀ m ∈ queued ++ ahead, state.kind = (StreamState.streaming m).kind

namespace Agrees

variable {state : StreamState} {queued queued' ahead : List StreamMode} {m : StreamMode}

/-- There is nothing to do but to stop. -/
theorem ended (ho : ahead.Pairwise fun m m' => m = .stopContinuous → m' = .stopContinuous)
    (ha : ∀ m ∈ ahead, m = .stopContinuous) : Agrees .idle [] ahead where
  order := ho
  halted _ := rfl
  rest _ := rfl
  running hn m hm := absurd (ha m hm ▸ hm) hn

theorem nothing : Agrees .idle [] [] := ended .nil (by simp)

/-- The chain takes a command to start. -/
theorem hear (h : Agrees state queued (m :: ahead)) (hm : m ≠ .stopContinuous) :
    Agrees state (queued ++ [m]) ahead where
  order := (List.pairwise_cons.1 h.order).2
  halted hs := h.halted (List.mem_cons_of_mem m hs)
  rest hn := by simp at hn
  running hn := by
    have hr := h.running fun hs => hn ((List.mem_cons.1 hs).resolve_left (Ne.symm hm))
    simpa using hr

/-- The chain ignores it. -/
theorem ignore (h : Agrees state queued (m :: ahead)) (hm : m ≠ .stopContinuous) (hq : queued ≠ []) :
    Agrees state queued ahead where
  order := (List.pairwise_cons.1 h.order).2
  halted hs := h.halted (List.mem_cons_of_mem m hs)
  rest hn := absurd (List.append_eq_nil_iff.1 hn).1 hq
  running hn m' hm' := by
    refine h.running (fun hs => hn ((List.mem_cons.1 hs).resolve_left (Ne.symm hm))) m' ?_
    rw [List.mem_append] at hm' ⊢
    exact hm'.imp_right (List.mem_cons_of_mem m)

/-- The chain takes a stop. -/
theorem stop (h : Agrees state queued (.stopContinuous :: ahead)) : state = .idle ∧ Agrees .idle [] ahead := by
  obtain ⟨hs, ho⟩ := List.pairwise_cons.1 h.order
  exact ⟨h.halted List.mem_cons_self, ended ho fun m hm => hs m hm rfl⟩

/-- The chain goes on to the next command. -/
theorem shrink (h : Agrees state queued ahead) (hsub : queued' ⊆ queued) (hne : queued' = [] → queued = []) :
    Agrees state queued' ahead where
  order := h.order
  halted := h.halted
  rest hn := by
    obtain ⟨hq, ha⟩ := List.append_eq_nil_iff.1 hn
    exact h.rest (by rw [hne hq, ha]; rfl)
  running hn m hm := by
    refine h.running hn m ?_
    rw [List.mem_append] at hm ⊢
    exact hm.imp_left fun hq => hsub hq

/-- The receiver asks for a stop. -/
theorem askStop (h : Agrees state queued ahead) : Agrees .idle queued (ahead ++ [.stopContinuous]) where
  order := by
    rw [List.pairwise_append]
    exact ⟨h.order, List.pairwise_singleton _ _, fun m _ m' hm' _ => List.mem_singleton.1 hm'⟩
  halted _ := rfl
  rest _ := rfl
  running hn := absurd (by simp) hn

/-- The receiver asks for a stream, of the kind that is going on if there is one. -/
theorem askStart (h : Agrees state queued ahead) (hm : m ≠ .stopContinuous) (hstop : .stopContinuous ∉ ahead)
    (hk : state = .idle ∨ state.kind = (StreamState.streaming m).kind) :
    Agrees (.streaming m) queued (ahead ++ [m]) where
  order := by
    rw [List.pairwise_append]
    exact ⟨h.order, List.pairwise_singleton _ _, fun m' hm' _ _ he => absurd (he ▸ hm') hstop⟩
  halted hs := by
    rcases List.mem_append.1 hs with hs | hs
    · exact absurd hs hstop
    · exact absurd (List.mem_singleton.1 hs).symm hm
  rest hn := by simp at hn
  running _ m' hm' := by
    rw [← List.append_assoc, List.mem_append, List.mem_singleton] at hm'
    rcases hm' with hm' | rfl
    · -- what is to be done already is of the kind of the state, so the receiver is not idle
      have hr := h.running hstop m' hm'
      rcases hk with rfl | hk
      · cases hr
      · rw [← hk, hr]
    · rfl

/-- With nothing on its way. -/
theorem idle_iff (h : Agrees state queued []) : state = .idle ↔ queued = [] := by
  constructor
  · intro hs
    by_contra hq
    obtain ⟨m, hm⟩ := List.exists_mem_of_ne_nil queued hq
    have hr := h.running (by simp) m (by simpa using hm)
    rw [hs] at hr
    cases hr
  · intro hq
    exact h.rest (by rw [hq, List.append_nil])

end Agrees

/-! ## The moves of a chain -/

namespace ReceiveChain

/-- The modes of the commands that the chain carries out or has still to begin. -/
def modes (c : ReceiveChain) : List StreamMode := (c.burst.map (·.mode)).toList ++ c.commands.map (·.mode)

/-- What the chain is at, as a receiver would say. -/
def doing (c : ReceiveChain) : StreamState :=
  match c.modes with
  | [] => .idle
  | m :: _ => .streaming m

/-- The packet of a phase that does not go on before it was sent. -/
def pressing (c : ReceiveChain) : List Incoming :=
  match c.phase with
  | .finish tick => [.data (c.closing tick).header 0]
  | .breakOff tick => [report .brokenChain tick]
  | _ => []

/-- What the chain owes to its receiver. -/
def dues (c : ReceiveChain) : List Incoming := (c.overflow.map (report .overflow)).toList ++ c.pressing

/-- What a receiver gets to know by a move: what was sent, and what is owed then. -/
def told (said : List Emission) (c' : ReceiveChain) : List Incoming :=
  said.map (fun e => .ofFrame c'.format (e.bytes c'.format)) ++ c'.dues

/-- What a move without a command leaves of the commands, and tells of them. -/
structure Turned (c : ReceiveChain) (tells : List Incoming) (c' : ReceiveChain) : Prop where
  /-- What was owed is not forgotten. -/
  owed : ∀ s : StreamState, c.dues.any s.ends → tells.any s.ends
  subset : c'.modes ⊆ c.modes
  /-- The chain does not come to rest without saying so. -/
  last : c'.modes = [] → c.modes = [] ∨ tells.any c.doing.ends
  /-- At rest it ends nothing. -/
  still : c.modes = [] → ∀ s : StreamState, tells.any s.ends → c.dues.any s.ends

variable {now : Reading} {c c' : ReceiveChain} {l : Link} {heard : List Bytes} {said : List Emission}

theorem Turned.same (hm : c'.modes = c.modes) {tells : List Incoming}
    (ht : ∀ s : StreamState, tells.any s.ends = c.dues.any s.ends) : Turned c tells c' where
  owed s hs := (ht s).trans hs
  subset := by rw [hm]; exact List.Subset.refl _
  last hn := .inl (hm ▸ hn)
  still _ s hs := (ht s).symm.trans hs

/-- A move that only goes on to another phase. -/
theorem Turned.goTo {phase : ReceivePhase} (hp : (c.goTo phase).pressing = c.pressing) :
    Turned c (told [] (c.goTo phase)) (c.goTo phase) := by
  refine .same (show (c.goTo phase).modes = c.modes from rfl) fun s => ?_
  unfold told dues
  rw [hp]
  rfl

theorem told_data {p : DataPacket} (hk : p.header.kind = .data) (c' : ReceiveChain) :
    ∃ h n, told [.data p] c' = .data h n :: c'.dues ∧ h.endOfBurst = p.header.endOfBurst := by
  obtain ⟨n, hn⟩ := Incoming.ofFrame_bytes c'.format p.samples hk
  have ht : told [.data p] c' =
      .data { p.header with payloadLength := UInt32.ofNat (p.samples.length * c'.format.sampleBytes) } n ::
        c'.dues := by
    unfold told Emission.bytes
    rw [List.map_singleton, hn]
    rfl
  exact ⟨_, n, ht, rfl⟩

theorem told_status (code : RxCode) (tick : Nat) (c' : ReceiveChain) :
    told [.status code tick] c' = report code tick :: c'.dues := by
  unfold told Emission.bytes
  rw [List.map_singleton, ofFrame_statusBytes]
  rfl

/-- A command comes in. -/
theorem handle_start (hp : c.phase = .listen) {command : StreamCommand} (hc : command.mode ≠ .stopContinuous) :
    (c.handle command).dues = c.dues ∧
      ((c.handle command).modes = c.modes ++ [command.mode] ∨
        ((c.handle command).modes = c.modes ∧ c.modes ≠ [])) := by
  unfold handle
  rw [if_neg hc]
  split
  · next hb =>
    refine ⟨by simp [dues, pressing, goTo, hp], .inr ⟨rfl, ?_⟩⟩
    cases hburst : c.burst with
    | none => simp [hburst] at hb
    | some b => simp [modes, hburst]
  · exact ⟨by simp [dues, pressing, hp], .inl (by simp [modes])⟩

theorem handle_stop (hp : c.phase = .listen) {command : StreamCommand} (hc : command.mode = .stopContinuous) :
    (∀ s : StreamState, c.dues.any s.ends → (c.handle command).dues.any s.ends) ∧ (c.handle command).modes = [] := by
  unfold handle
  rw [if_pos hc]
  dsimp only
  cases hb : c.burst with
  | none => simp [dues, pressing, goTo, hp, modes]
  | some b =>
    refine ⟨fun s hs => ?_, rfl⟩
    have hd : c.dues = (c.overflow.map (report .overflow)).toList := by simp [dues, pressing, hp]
    rw [hd] at hs
    unfold dues
    rw [List.any_append]
    simp only [hs, Bool.true_or]

/-- A command begins, or has no samples to begin with. -/
theorem turned_start (hp : c.phase = .begin) (hb : c.burst = none) {command : StreamCommand}
    {commands : List StreamCommand} (hc : c.commands = command :: commands) (tick : Nat)
    (hf : command.mode = .samplesAndMore → command.samples = 0 → commands ≠ []) :
    Turned c (told [] (start { c with commands } command tick)) (start { c with commands } command tick) := by
  have hm : c.modes = command.mode :: commands.map (·.mode) := by simp [modes, hb, hc]
  have hd : c.doing = .streaming command.mode := by simp [doing, hm]
  have hdues : c.dues = (c.overflow.map (report .overflow)).toList := by simp [dues, pressing, hp]
  unfold start
  split
  · next hz =>
    rw [Bool.and_eq_true, beq_iff_eq] at hz
    have hm' : ∀ phase, (goTo { c with commands } phase).modes = commands.map (·.mode) := by
      simp [modes, goTo, hb]
    by_cases hmode : command.mode = .samplesAndDone
    · -- a burst of no samples is its end
      rw [if_pos hmode]
      refine ⟨fun s hs => ?_, ?_, fun _ => .inr ?_, fun hn => ?_⟩
      · rw [hdues] at hs
        simp only [told, dues, goTo, List.map_nil, List.nil_append, List.any_append, hs, Bool.true_or]
      · rw [hm', hm]
        exact List.subset_cons_self _ _
      · rw [hd]
        simp [told, dues, pressing, goTo, StreamState.ends_data, closing, Header.stamped]
      · rw [hm] at hn
        cases hn
    · rw [if_neg hmode]
      have hmore : command.mode = .samplesAndMore := by
        cases hk : command.mode <;> simp [hk, StreamMode.isFixedCount] at hz hmode ⊢
      refine ⟨fun s hs => ?_, ?_, fun hn => ?_, fun hn => ?_⟩
      · rw [hdues] at hs
        simpa [told, dues, pressing, goTo] using hs
      · rw [hm', hm]
        exact List.subset_cons_self _ _
      · rw [hm', List.map_eq_nil_iff] at hn
        exact absurd hn (hf hmore hz.2)
      · rw [hm] at hn
        cases hn
  · refine .same ?_ fun s => ?_
    · rw [hm]
      rfl
    · rw [hdues]
      simp [told, dues, pressing]

/-- After its last packet a burst has ended, goes on with a command, or is broken. -/
theorem modes_advanced {b : Burst} (hb : c.burst = some b) :
    (c.advanced b (b.count c.packetSamples)).modes ⊆ c.modes ∧
      ((c.advanced b (b.count c.packetSamples)).modes = [] → b.ends (b.count c.packetSamples) = true ∨
        ∃ tick, report .brokenChain tick ∈ (c.advanced b (b.count c.packetSamples)).dues) := by
  have hm : c.modes = b.mode :: c.commands.map (·.mode) := by simp [modes, hb]
  rw [hm]
  unfold advanced
  dsimp only
  split
  · exact ⟨List.Subset.refl _, fun hn => by simp [modes] at hn⟩
  · next hout =>
    rw [Bool.or_eq_true, not_or, Bool.not_eq_true, Bool.not_eq_false', Bool.not_eq_true, bne_eq_false_iff_eq] at hout
    obtain ⟨hfix, hzero⟩ := hout
    split
    · cases hc : c.commands with
      | nil => exact ⟨List.nil_subset _, fun _ => .inr ⟨_, List.mem_append_right _ List.mem_cons_self⟩⟩
      | cons command commands => exact ⟨List.subset_cons_self _ _, fun hn => by simp [modes] at hn⟩
    · next hmore =>
      refine ⟨List.subset_cons_self _ _, fun _ => .inl ?_⟩
      have hdone : b.mode = .samplesAndDone := by
        cases hk : b.mode <;> simp [hk, Burst.sent, StreamMode.isFixedCount] at hfix hmore ⊢
      have hall : b.remaining ≤ c.packetSamples := by
        simp only [Burst.sent, Burst.count, hdone, StreamMode.isFixedCount, if_true] at hzero
        omega
      simp [Burst.ends, Burst.count, hdone, StreamMode.isFixedCount, hall]

/-- What a chain has to do was asked for. -/
theorem Move.modes_subset (h : Move now c l heard said c') : c'.modes ⊆ c.modes ++ modesIn c.rate heard := by
  cases h with
  | @heard f command hp hc =>
    rw [modesIn, List.filterMap_cons_some hc, List.filterMap_nil, List.map_singleton]
    by_cases hm : command.mode = .stopContinuous
    · rw [(handle_stop hp hm).2]
      exact List.nil_subset _
    · rcases (handle_start hp hm).2 with hq | ⟨hq, -⟩ <;> rw [hq]
      · exact List.Subset.refl _
      · exact List.subset_append_left _ _
  | begin hp hb hc =>
    refine List.subset_append_of_subset_left _ ?_
    unfold start
    split <;> simp [modes, goTo, hb, hc, Burst.ofCommand]
  | sent hp hb => exact List.subset_append_of_subset_left _ (modes_advanced hb).1
  | missed hp hb =>
    refine List.subset_append_of_subset_left _ ?_
    unfold overflowed
    dsimp only
    split <;> simp [modes, hb, Burst.skipped]
  | untiled hp hb hc | late hp hb hc => simp [modes, hb, hc]
  | _ => exact List.subset_append_left _ _

/-- The next packet is sent. -/
theorem turned_advanced (hp : c.phase = .produce) {b : Burst} (hb : c.burst = some b) :
    Turned c (told [.data (c.packet b)] (c.advanced b (b.count c.packetSamples)))
      (c.advanced b (b.count c.packetSamples)) := by
  have hm : c.modes = b.mode :: c.commands.map (·.mode) := by simp [modes, hb]
  have hd : c.doing = .streaming b.mode := by simp [doing, hm]
  have hdues : c.dues = (c.overflow.map (report .overflow)).toList := by simp [dues, pressing, hp]
  have hover := (c.advanced_keeps b (b.count c.packetSamples)).2.2.2.1
  obtain ⟨h, n, ht, he⟩ := told_data (show (c.packet b).header.kind = .data from rfl)
    (c.advanced b (b.count c.packetSamples))
  obtain ⟨hsub, hlast⟩ := modes_advanced hb
  refine ⟨fun s hs => ?_, hsub, fun hn => .inr ?_, fun hn => ?_⟩
  · rw [hdues] at hs
    rw [ht, List.any_cons, dues, List.any_append, hover, hs]
    simp
  · rw [ht, hd, List.any_cons, StreamState.ends_data, he]
    rcases hlast hn with hends | ⟨tick, hbroken⟩
    · have heob : (c.packet b).header.endOfBurst = true := hends
      rw [heob, Bool.true_or]
    · rw [Bool.or_eq_true]
      exact .inr (List.any_eq_true.2 ⟨_, hbroken, rfl⟩)
  · rw [hm] at hn
    cases hn

/-- There is no frame for it. -/
theorem turned_overflowed (hp : c.phase = .produce) {b : Burst} (hb : c.burst = some b) (n : Nat) :
    Turned c (told [] (c.overflowed b n)) (c.overflowed b n) := by
  have hm : c.modes = b.mode :: c.commands.map (·.mode) := by simp [modes, hb]
  have hd : c.doing = .streaming b.mode := by simp [doing, hm]
  have hdues : c.dues = (c.overflow.map (report .overflow)).toList := by simp [dues, pressing, hp]
  have ht : told [] (c.overflowed b n) = [report .overflow (b.nextTick + n)] := by
    unfold overflowed
    dsimp only
    split <;> rfl
  refine ⟨fun s hs => ?_, ?_, fun hn => .inr ?_, fun hn => ?_⟩
  · -- which overflow it was makes no difference
    rw [hdues] at hs
    rw [ht]
    cases ho : c.overflow with
    | none => simp [ho] at hs
    | some tick =>
      rw [ho] at hs
      exact hs
  · rw [hm]
    unfold overflowed
    dsimp only
    split
    · exact List.nil_subset _
    · exact List.Subset.refl _
  · rw [ht, hd]
    unfold overflowed at hn
    dsimp only at hn
    split at hn
    · next hfix => cases hk : b.mode <;> simp [hk, Burst.skipped, StreamMode.isFixedCount] at hfix ⊢ <;> rfl
    · simp [modes] at hn
  · rw [hm] at hn
    cases hn

/-- A move that loses no report takes a command or turns to what it has. -/
theorem Move.turned (h : Move now c l heard said c') (hpos : 0 < c.packetSamples)
    (hopen : l.closed = true → c.phase = .stopped) (hf : forgotten now c l = []) :
    (heard.filterMap (command? c.rate) = [] ∧ Turned c (told said c') c') ∨
      ∃ command, heard.filterMap (command? c.rate) = [command] ∧ said = [] ∧ c.phase = .listen ∧
        c' = c.handle command := by
  cases h with
  | @heard f command hp hc => exact .inr ⟨command, by rw [List.filterMap_cons_some hc]; rfl, rfl, hp, rfl⟩
  | closed hp | settled hp | goOn hp | idle hp | unburst hp | timeless hp | early hp | rested hp =>
    exact .inl ⟨rfl, .goTo (by simp [pressing, ReceiveChain.goTo, hp])⟩
  | unheard hp hle hn =>
    exact .inl ⟨List.filterMap_eq_nil_iff.2 hn, .goTo (by simp [pressing, ReceiveChain.goTo, hp])⟩
  | stalled | stopped => exact .inl ⟨rfl, .same rfl fun s => rfl⟩
  | unreported hp =>
    refine .inl ⟨rfl, .goTo ?_⟩
    split <;> simp [pressing, ReceiveChain.goTo, hp]
  | reported hp ho =>
    refine .inl ⟨rfl, .same ?_ fun s => ?_⟩
    · rfl
    · rw [told_status]
      simp [dues, pressing, hp, ho]
  | untiled hp hb hc hi hz => omega
  | begin hp hb hc hi ht =>
    refine .inl ⟨rfl, turned_start hp hb hc _ fun hmore hzero hnil => ?_⟩
    -- a count of zero that nothing follows is not reported
    rw [forgotten_begin hp hb hc ht, List.append_eq_nil_iff] at hf
    have he := hf.2
    subst hnil
    simp [endings, hp, hb, hc, ht, hmore, hzero] at he
  | @late command commands said hp hb hc ht htold =>
    have hm : c.modes = command.mode :: commands.map (·.mode) := by simp [modes, hb, hc]
    cases htold with
    | out hfit =>
      refine .inl ⟨rfl, fun s hs => ?_, ?_, fun _ => .inr ?_, fun hn => ?_⟩
      · rw [told_status, List.any_cons]
        simp only [dues, pressing, hp, List.append_nil] at hs ⊢
        rw [hs, Bool.or_true]
      · rw [hm]
        simp [modes, hb]
      · rw [told_status, List.any_cons, doing, hm]
        rfl
      · rw [hm] at hn
        cases hn
    | lost hfit =>
      have he : endings now c l = [report .lateCommand now.tick] := by simp only [endings, hp, hb, hc, ht]
      simp [forgotten, hp, he, hfit] at hf
  | sent hp hb => exact .inl ⟨rfl, turned_advanced hp hb⟩
  | missed hp hb => exact .inl ⟨rfl, turned_overflowed hp hb _⟩
  | @finished tick hp =>
    refine .inl ⟨rfl, .same ?_ fun s => ?_⟩
    · rfl
    · obtain ⟨h, n, ht, he⟩ := told_data (show (c.closing tick).header.kind = .data from rfl)
        { c with sequence := c.sequence + 1, phase := .listen }
      have hends : s.ends (.data h n) = s.ends (.data (c.closing tick).header 0) := by
        simp only [StreamState.ends, StreamState.meets, he]
      rw [ht, List.any_cons, hends]
      simp [dues, pressing, hp, Bool.or_comm]
  | abandoned hp hi hc =>
    rw [hopen hc] at hp
    cases hp
  | @brokeOff tick said hp htold =>
    cases htold with
    | out hfit =>
      refine .inl ⟨rfl, .same ?_ fun s => ?_⟩
      · rfl
      · rw [told_status]
        simp [dues, pressing, ReceiveChain.goTo, hp, Bool.or_comm]
    | lost hfit => simp [forgotten, owed, hp, hfit] at hf

end ReceiveChain

end Sim

end RadioStream
