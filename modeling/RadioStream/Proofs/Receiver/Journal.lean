import RadioStream.Proofs.Receiver.Trace
/-!
# What arrives

Which conditions a receiver meets is decided by the frames that come in, in the order in
which it takes them from its links. `conditionsIn` reads the conditions off the frames.

A receiver is run in surroundings that keep a journal of its frames, and `Noted` says
that an operation met what the frames it took say. Alignments that are given up and
links that stay silent are not brought by a frame.
-/

namespace RadioStream

/-- A frame that comes in on a channel. -/
structure Arrival where
  channel : Nat
  frame : Bytes

/-- The data packets that come in on a channel. -/
def packetsOn (format : WireFormat) (as : List Arrival) (i : Nat) : List DataPacket :=
  packetsIn format ((as.filter (·.channel == i)).map (·.frame))

/-- The sequence number after that of the last data packet of a channel. -/
def expectedAfter (format : WireFormat) (as : List Arrival) (i : Nat) : Option UInt16 :=
  (packetsOn format as i).getLast?.map (·.header.sequence + 1)

/-- The condition that a frame brings that comes in after others. -/
def Arrival.condition? (format : WireFormat) (before : List Arrival) (a : Arrival) : Option Condition :=
  match Incoming.ofFrame format a.frame with
  | .malformed => some .malformed
  | .status code tick => some (.status code tick)
  | .data h _ => if (expectedAfter format before a.channel).all (· == h.sequence) then none else some .gap

/-- The conditions that frames bring that come in after others. -/
def conditionsFrom (format : WireFormat) : List Arrival → List Arrival → List Condition
  | _, [] => []
  | before, a :: as => (a.condition? format before).toList ++ conditionsFrom format (before ++ [a]) as

/-- The conditions that some frames bring. -/
def conditionsIn (format : WireFormat) (as : List Arrival) : List Condition := conditionsFrom format [] as

/-- Whether a condition is brought by a frame. -/
def Condition.brought : Condition → Bool
  | silence | misaligned => false
  | status _ _ | malformed | gap => true

section Arrivals

variable {format : WireFormat} {as : List Arrival} {a : Arrival} {i : Nat}

theorem conditionsFrom_append (before as bs : List Arrival) :
    conditionsFrom format before (as ++ bs) =
      conditionsFrom format before as ++ conditionsFrom format (before ++ as) bs := by
  induction as generalizing before with
  | nil => simp [conditionsFrom]
  | cons a as ih => simp [conditionsFrom, ih]

theorem conditionsIn_concat (as : List Arrival) (a : Arrival) :
    conditionsIn format (as ++ [a]) = conditionsIn format as ++ (a.condition? format as).toList := by
  simp [conditionsIn, conditionsFrom_append, conditionsFrom]

/-- A frame of another channel changes nothing. -/
theorem expectedAfter_other (h : a.channel ≠ i) : expectedAfter format (as ++ [a]) i = expectedAfter format as i := by
  have hf : [a].filter (·.channel == i) = [] := by simp [h]
  rw [expectedAfter, packetsOn, List.filter_append, hf, List.append_nil]
  rfl

/-- Neither does a frame that holds no data packet. -/
theorem expectedAfter_of_none (h : DataPacket.ofFrame? format a.frame = none) :
    expectedAfter format (as ++ [a]) i = expectedAfter format as i := by
  by_cases hi : a.channel = i
  · have hf : [a].filter (·.channel == i) = [a] := by simp [hi]
    have hp : packetsIn format [a.frame] = [] := by simp [packetsIn, h]
    rw [expectedAfter, packetsOn, List.filter_append, hf, List.map_append, packetsIn_append, List.map_singleton, hp,
      List.append_nil]
    rfl
  · exact expectedAfter_other hi

theorem expectedAfter_data {frame : Bytes} {p : DataPacket} (h : DataPacket.ofFrame? format frame = some p) :
    expectedAfter format (as ++ [⟨i, frame⟩]) i = some (p.header.sequence + 1) := by
  have hf : [Arrival.mk i frame].filter (·.channel == i) = [⟨i, frame⟩] := by simp
  have hp : packetsIn format [frame] = [p] := by simp [packetsIn, h]
  rw [expectedAfter, packetsOn, List.filter_append, hf, List.map_append, packetsIn_append, List.map_singleton, hp,
    List.getLast?_concat, Option.map_some]

end Arrivals

/-! ## Surroundings with a journal -/

/-- Surroundings that keep a journal of the frames received. -/
structure Journaled (σ : Type) where
  inner : σ
  entries : List Arrival := []

/-- Terminals that enter what they receive into the journal. -/
def journaling {σ : Type} (terminals : Nat → Terminal σ) (i : Nat) : Terminal (Journaled σ) where
  receive wait s := match (terminals i).receive wait s.inner with
    | (some f, x) => (some f, ⟨x, s.entries ++ [⟨i, f.payload⟩]⟩)
    | (none, x) => (none, { s with inner := x })
  recycle f s := { s with inner := (terminals i).recycle f s.inner }
  acquire wait s := match (terminals i).acquire wait s.inner with
    | (f, x) => (f, { s with inner := x })
  submit f s := { s with inner := (terminals i).submit f s.inner }
  backlog s := (terminals i).backlog s.inner

theorem journaling_shows {σ : Type} (terminals : Nat → Terminal σ) (i : Nat) :
    (journaling terminals i).Shows Journaled.inner (terminals i) where
  receive wait s := by
    simp only [journaling]
    rcases (terminals i).receive wait s.inner with ⟨_ | f, x⟩ <;> rfl
  recycle _ _ := rfl
  acquire _ _ := rfl
  submit _ _ := rfl
  backlog _ := rfl

/-- Channels, the first of which has a number, expect what follows on the arrivals. -/
def Expecting (format : WireFormat) (as : List Arrival) (first : Nat) (cs : List RxChannel) : Prop :=
  cs.map (·.expected) = (List.range' first cs.length).map (expectedAfter format as)

/-- What channels from a number on have met is what the frames say that they took, and
those of channels before are left alone. -/
structure Noted {σ : Type} (format : WireFormat) (first : Nat) (s s' : Journaled σ) (cs : List RxChannel)
    (ks : List Condition) : Prop where
  expecting : Expecting format s'.entries first cs
  before : ∀ j < first, expectedAfter format s'.entries j = expectedAfter format s.entries j
  conditions : conditionsIn format s'.entries = conditionsIn format s.entries ++ ks.filter Condition.brought

theorem expecting_cons {format : WireFormat} {as : List Arrival} {first : Nat} {c : RxChannel} {cs : List RxChannel} :
    Expecting format as first (c :: cs) ↔
      c.expected = expectedAfter format as first ∧ Expecting format as (first + 1) cs := by
  simp [Expecting, List.range'_succ]

/-- New channels expect nothing. -/
theorem expecting_new {format : WireFormat} (sizes : List Nat) : Expecting format [] 0 (sizes.map fun _ => {}) := by
  have he : expectedAfter format [] = fun _ => none := rfl
  simp [Expecting, he]

/-- What channels expect depends on their own frames. -/
theorem Expecting.congr {format : WireFormat} {as bs : List Arrival} {first : Nat} {cs : List RxChannel}
    (h : Expecting format as first cs)
    (he : ∀ j, first ≤ j → expectedAfter format bs j = expectedAfter format as j) : Expecting format bs first cs := by
  rw [Expecting, h]
  apply List.map_congr_left
  intro j hj
  exact (he j (List.mem_range'_1.1 hj).1).symm

namespace Noted

variable {σ : Type} {format : WireFormat} {first : Nat} {s s₁ s' : Journaled σ} {cs cs₁ : List RxChannel}
  {ks ls : List Condition}

/-- What takes no frames and changes no expectation meets nothing. -/
theorem quiet (h : Expecting format s.entries first cs) (hs : s'.entries = s.entries)
    (hc : cs₁.map (·.expected) = cs.map (·.expected)) : Noted format first s s' cs₁ [] where
  expecting := by
    have hl : cs₁.length = cs.length := by simpa using congrArg List.length hc
    rw [Expecting, hc, hs, hl]
    exact h
  before _ _ := by rw [hs]
  conditions := by rw [hs, List.filter_nil, List.append_nil]

theorem trans (h : Noted format first s s₁ cs₁ ks) (h' : Noted format first s₁ s' cs ls) :
    Noted format first s s' cs (ks ++ ls) where
  expecting := h'.expecting
  before j hj := (h'.before j hj).trans (h.before j hj)
  conditions := by rw [h'.conditions, h.conditions, List.append_assoc, List.filter_append]

end Noted

/-! ## Operations of the channels -/

section Operations

variable {σ : Type} {terminals : Nat → Terminal σ} {format : WireFormat} {wait : Nat}

/-- A channel that brings in a packet takes at most one frame. -/
theorem fetch_noted {i : Nat} {c c' : RxChannel} {s s' : Journaled σ} {k : Option Condition}
    (h : RxChannel.fetch (journaling terminals i) format wait c s = (k, c', s'))
    (he : c.expected = expectedAfter format s.entries i) :
    c'.expected = expectedAfter format s'.entries i ∧
      (∀ j, j ≠ i → expectedAfter format s'.entries j = expectedAfter format s.entries j) ∧
      conditionsIn format s'.entries = conditionsIn format s.entries ++ k.toList.filter Condition.brought := by
  unfold RxChannel.fetch at h
  by_cases hh : c.held.isSome
  · rw [if_pos hh] at h
    cases h
    exact ⟨he, fun _ _ => rfl, by simp⟩
  · rw [if_neg hh] at h
    simp only [journaling] at h
    rcases hr : (terminals i).receive wait s.inner with ⟨_ | f, x⟩
    · rw [hr] at h
      cases h
      exact ⟨he, fun _ _ => rfl, by simp [Condition.brought]⟩
    · rw [hr] at h
      dsimp only at h
      have ho : ∀ j, j ≠ i →
          expectedAfter format (s.entries ++ [⟨i, f.payload⟩]) j = expectedAfter format s.entries j :=
        fun j hj => expectedAfter_other (Ne.symm hj)
      -- the frame decides what is met, and only a data packet changes what is expected
      cases hf : Incoming.ofFrame format f.payload with
      | malformed =>
        rw [hf] at h
        cases h
        have hn : DataPacket.ofFrame? format f.payload = none := DataPacket.ofFrame?_eq_none (by simp [hf])
        refine ⟨he.trans (expectedAfter_of_none hn).symm, ho, ?_⟩
        rw [conditionsIn_concat, Arrival.condition?, hf]
        rfl
      | status code tick =>
        rw [hf] at h
        cases h
        have hn : DataPacket.ofFrame? format f.payload = none := DataPacket.ofFrame?_eq_none (by simp [hf])
        refine ⟨he.trans (expectedAfter_of_none hn).symm, ho, ?_⟩
        rw [conditionsIn_concat, Arrival.condition?, hf]
        rfl
      | data header n =>
        rw [hf] at h
        cases h
        obtain ⟨xs, hp, -⟩ := Incoming.ofFrame_eq_data_iff.1 hf
        refine ⟨(expectedAfter_data hp).symm, ho, ?_⟩
        rw [conditionsIn_concat, Arrival.condition?, hf, he]
        dsimp only
        split <;> rfl

theorem fetchAll_noted {i : Nat} {cs cs' : List RxChannel} {s s' : Journaled σ} {k : Option Condition}
    (h : RxChannel.fetchAll (journaling terminals) format wait i cs s = (k, cs', s'))
    (he : Expecting format s.entries i cs) : Noted format i s s' cs' k.toList := by
  induction cs generalizing i s k cs' with
  | nil =>
    cases h
    exact .quiet he rfl rfl
  | cons c cs ih =>
    obtain ⟨hc, hcs⟩ := expecting_cons.1 he
    unfold RxChannel.fetchAll at h
    rcases hf : RxChannel.fetch (journaling terminals i) format wait c s with ⟨_ | k₁, c₁, s₁⟩
    · rw [hf] at h
      obtain ⟨hc₁, ho, hk⟩ := fetch_noted hf hc
      have hcs₁ : Expecting format s₁.entries (i + 1) cs := hcs.congr fun j hj => ho j (by omega)
      rcases hr : RxChannel.fetchAll (journaling terminals) format wait (i + 1) cs s₁ with ⟨k₂, cs₂, s₂⟩
      dsimp only at h
      rw [hr] at h
      cases h
      have hn := ih hr hcs₁
      refine ⟨expecting_cons.2 ⟨hc₁.trans (hn.before i (by omega)).symm, hn.expecting⟩, fun j hj => ?_, ?_⟩
      · rw [hn.before j (by omega), ho j (by omega)]
      · rw [hn.conditions, hk]
        simp
    · -- the channels after it are not looked at
      rw [hf] at h
      cases h
      obtain ⟨hc₁, ho, hk⟩ := fetch_noted hf hc
      exact ⟨expecting_cons.2 ⟨hc₁, hcs.congr fun j hj => ho j (by omega)⟩, fun j hj => ho j (by omega), hk⟩

theorem dropWhere_quiet (terminals : Nat → Terminal σ) (test : Held → Bool) (i : Nat) (cs : List RxChannel)
    (s : Journaled σ) :
    (RxChannel.dropWhere (journaling terminals) test i cs s).2.entries = s.entries ∧
      (RxChannel.dropWhere (journaling terminals) test i cs s).1.map (·.expected) = cs.map (·.expected) := by
  induction cs generalizing i s with
  | nil => exact ⟨rfl, rfl⟩
  | cons c cs ih =>
    have hl : (RxChannel.letGo (journaling terminals i) test c s).2.entries = s.entries ∧
        (RxChannel.letGo (journaling terminals i) test c s).1.expected = c.expected := by
      unfold RxChannel.letGo
      cases c.held with
      | none => exact ⟨rfl, rfl⟩
      | some g => dsimp only; split <;> exact ⟨rfl, rfl⟩
    obtain ⟨h₁, h₂⟩ := ih (i + 1) (RxChannel.letGo (journaling terminals i) test c s).2
    unfold RxChannel.dropWhere
    exact ⟨h₁.trans hl.1, by rw [List.map_cons, List.map_cons, hl.2, h₂]⟩

theorem advanceAll_quiet {S : Type} [HostSample S] (terminals : Nat → Terminal σ) (format : WireFormat)
    (position n i : Nat) (cs : List RxChannel) (bs : List (List S))
    (s : Journaled σ) :
    (RxChannel.advanceAll (journaling terminals) format position n i cs bs s).2.2.entries = s.entries ∧
      (RxChannel.advanceAll (journaling terminals) format position n i cs bs s).1.map (·.expected) =
        cs.map (·.expected) := by
  induction cs generalizing i bs s with
  | nil => cases bs <;> exact ⟨rfl, rfl⟩
  | cons c cs ih =>
    cases bs with
    | nil => exact ⟨rfl, rfl⟩
    | cons b bs =>
      have hl : (RxChannel.advance (journaling terminals i) format position n c b s).2.2.entries = s.entries ∧
          (RxChannel.advance (journaling terminals i) format position n c b s).1.expected = c.expected := by
        unfold RxChannel.advance
        cases c.held with
        | none => exact ⟨rfl, rfl⟩
        | some g => dsimp only; split <;> exact ⟨rfl, rfl⟩
      obtain ⟨h₁, h₂⟩ := ih (i + 1) bs (RxChannel.advance (journaling terminals i) format position n c b s).2.2
      unfold RxChannel.advanceAll
      exact ⟨h₁.trans hl.1, by rw [List.map_cons, List.map_cons, hl.2, h₂]⟩

/-! ## Operations of the receiver -/

theorem alignRounds_noted {rounds : Nat} {cs cs' : List RxChannel} {s s' : Journaled σ} {k : Option Condition}
    (h : Receiver.alignRounds (journaling terminals) format wait rounds cs s = (k, cs', s'))
    (he : Expecting format s.entries 0 cs) : Noted format 0 s s' cs' k.toList := by
  induction rounds generalizing cs s with
  | zero =>
    -- giving up takes no frame, so the frames say nothing of it
    cases h
    obtain ⟨hs, hc⟩ := dropWhere_quiet terminals (fun _ => true) 0 cs s
    have hn := Noted.quiet he hs hc
    exact ⟨hn.expecting, hn.before, hn.conditions⟩
  | succ rounds ih =>
    unfold Receiver.alignRounds at h
    rcases hf : RxChannel.fetchAll (journaling terminals) format wait 0 cs s with ⟨_ | k₁, cs₁, s₁⟩
    · rw [hf] at h
      have hn := fetchAll_noted hf he
      dsimp only at h
      cases ht : Receiver.newestTick cs₁ with
      | none =>
        rw [ht] at h
        cases h
        exact hn
      | some newest =>
        rw [ht] at h
        dsimp only at h
        split at h
        · obtain ⟨hs, hc⟩ := dropWhere_quiet terminals (Held.behind newest) 0 cs₁ s₁
          have hd := hn.trans (.quiet hn.expecting hs hc)
          exact hd.trans (ih h hd.expecting)
        · cases h
          exact hn
    · rw [hf] at h
      cases h
      exact fetchAll_noted hf he

theorem align_noted {r r' : Receiver} {s s' : Journaled σ} {k : Option Condition}
    (h : r.align (journaling terminals) wait s = (k, r', s')) (he : Expecting r.format s.entries 0 r.channels) :
    Noted r.format 0 s s' r'.channels k.toList := by
  unfold Receiver.align at h
  rcases ha : Receiver.alignRounds (journaling terminals) r.format wait (r.channels.length * Receiver.roundsPerChannel)
    r.channels s with ⟨k₁, cs, s₁⟩
  dsimp only at h
  rw [ha] at h
  cases h
  exact alignRounds_noted ha he

variable {S : Type} [HostSample S]

theorem consume_noted {position most : Nat} {r r' : Receiver} {buffers buffers' : List (List S)} {s s' : Journaled σ}
    {p : Portion} (h : r.consume (journaling terminals) position most buffers s = (p, r', buffers', s'))
    (he : Expecting r.format s.entries 0 r.channels) : Noted r.format 0 s s' r'.channels [] := by
  unfold Receiver.consume at h
  cases hl : r.leading? with
  | none =>
    rw [hl] at h
    cases h
    exact .quiet he rfl rfl
  | some lead =>
    rw [hl] at h
    cases h
    obtain ⟨hs, hc⟩ := advanceAll_quiet terminals r.format position
      (min (Receiver.commonRemaining r.channels) most) 0 r.channels buffers s
    exact .quiet he hs hc

theorem Gathers.noted {count fuel : Nat} {g g' : Stage S (Journaled σ)} {es : List RxEvent}
    (h : Gathers (journaling terminals) wait count fuel g es g')
    (he : Expecting g.receiver.format g.surroundings.entries 0 g.receiver.channels) :
    Noted g.receiver.format 0 g.surroundings g'.surroundings g'.receiver.channels (conditionsOf es) := by
  induction h with
  | stop => exact .quiet he rfl rfl
  | refused _ ha =>
    have hn := align_noted ha he
    dsimp only
    split <;> exact hn
  | burst _ ha => exact align_noted ha he
  | more _ ha hc _ ih =>
    have hn := align_noted ha he
    obtain ⟨cs, state, rfl⟩ := align_keeps _ ha
    have hu := consume_noted hc hn.expecting
    have hm := hn.trans hu
    obtain ⟨cs', rfl⟩ := consume_keeps _ hc
    rw [conditionsOf_handed]
    exact hm.trans (ih hm.expecting)

/-- The frames that a call takes bring the conditions that it meets. -/
theorem Receives.noted {r : Receiver} {buffers : List (List S)} {count : Nat} {md : RxMetadata} {s : Journaled σ}
    {es : List RxEvent} {y : Received S (Journaled σ)}
    (h : Receives (journaling terminals) r buffers count wait md s es y)
    (he : Expecting r.format s.entries 0 r.channels) :
    Noted r.format 0 s y.surroundings y.receiver.channels (conditionsOf es) := by
  cases h with
  | misuse | told => exact .quiet he rfl rfl
  | unseen _ _ ha | seen _ _ ha | refused _ _ ha => exact align_noted ha he
  | @emptied _ r' s' _ _ _ _ _ ha _ hd =>
    have hn := align_noted ha he
    obtain ⟨hs, hc⟩ := dropWhere_quiet terminals (fun _ => true) 0 r'.channels s'
    rw [hd] at hs hc
    exact hn.trans (.quiet hn.expecting hs hc)
  | delivered _ _ _ ha hc _ hg =>
    have hn := align_noted ha he
    obtain ⟨cs, state, rfl⟩ := align_keeps _ ha
    have hu := consume_noted hc hn.expecting
    have hm := hn.trans hu
    obtain ⟨cs', rfl⟩ := consume_keeps _ hc
    rw [conditionsOf_handed]
    exact hm.trans (hg.noted hm.expecting)

end Operations

/-! ## Runs -/

/-- The same action where a journal is kept. -/
def RxAction.journaled {S σ : Type} : RxAction S σ → RxAction S (Journaled σ) :=
  RxAction.lifted fun f s => { s with inner := f s.inner }

namespace RxSession

variable {S σ : Type} [HostSample S] (terminals : Nat → Terminal σ)

/-- A run of a session where a journal is kept. -/
def runJournaled (x : RxSession S σ) (as : List (RxAction S σ)) : RxSession S (Journaled σ) :=
  RxSession.run (journaling terminals) ⟨x.receiver, { inner := x.surroundings }, x.returns⟩
    (as.map RxAction.journaled)

/-- The frames that a run of a session takes from its links, in their order. -/
def arrivals (x : RxSession S σ) (as : List (RxAction S σ)) : List Arrival :=
  (x.runJournaled terminals as).surroundings.entries

/-- One action takes the frames that bring the conditions of its call. -/
theorem step_noted {x : RxSession S (Journaled σ)} (a : RxAction S σ)
    (he : Expecting x.receiver.format x.surroundings.entries 0 x.receiver.channels) :
    (x.step (journaling terminals) a.journaled).receiver.format = x.receiver.format ∧
      Noted x.receiver.format 0 x.surroundings (x.step (journaling terminals) a.journaled).surroundings
        (x.step (journaling terminals) a.journaled).receiver.channels
        ((x.call? (journaling terminals) a.journaled).toList.flatMap (·.met)) := by
  cases a with
  | recv buffers count wait onePacket md =>
    have h := recv_receives (journaling terminals) x.receiver buffers count wait onePacket md x.surroundings
    have hn := h.noted he
    refine ⟨h.format_eq.1, ?_⟩
    simpa [RxAction.journaled, RxAction.lifted, step, call?, RxCall.met] using hn
  | issue c =>
    obtain ⟨res, st, s', hr, hs⟩ := issueFrom_keeps (journaling terminals) (f := Journaled.entries)
      (fun _ _ _ => rfl) (fun _ _ _ => rfl) c x.receiver.channels.length 0 x.receiver x.surroundings
    have hx : x.step (journaling terminals) (.issue c) =
        { x with receiver := { x.receiver with state := st }, surroundings := s' } := by
      rw [step, Receiver.issue, hr]
    rw [RxAction.journaled, RxAction.lifted, hx]
    exact ⟨rfl, .quiet he hs rfl⟩
  | elapse f => exact ⟨rfl, .quiet he rfl rfl⟩

theorem run_noted {x : RxSession S (Journaled σ)} (as : List (RxAction S σ))
    (he : Expecting x.receiver.format x.surroundings.entries 0 x.receiver.channels) :
    Noted x.receiver.format 0 x.surroundings
      (x.run (journaling terminals) (as.map RxAction.journaled)).surroundings
      (x.run (journaling terminals) (as.map RxAction.journaled)).receiver.channels
      ((x.calls (journaling terminals) (as.map RxAction.journaled)).flatMap (·.met)) := by
  induction as generalizing x with
  | nil => exact .quiet he rfl rfl
  | cons a as ih =>
    obtain ⟨hf, hn⟩ := step_noted terminals a he
    have h := ih (hf ▸ hn.expecting)
    rw [hf] at h
    rw [List.map_cons, calls, List.flatMap_append]
    exact hn.trans h

end RxSession

end RadioStream
