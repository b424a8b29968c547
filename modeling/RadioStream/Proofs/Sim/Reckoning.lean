import RadioStream.Proofs.Sim.Alarms
import RadioStream.Proofs.Sim.Notes
/-!
# A transmit chain keeps its books

A transmit chain on its link, with notes of what it does. The host puts any bytes on the
link, at any time and with stalls of any length between them, and the clock shows what it
likes. `TransmitChain.Keeps` ties what the chain remembers to what a reader of the notes
does: the number that comes next, whether packets are dropped, whether a burst is on. Every
move keeps it, so at any time the notes are accountable.
-/

namespace RadioStream.Sim

namespace TransmitChain

/-- The notes of a step from one chain to another. -/
def notes (now : Reading) (c c' : TransmitChain) : List Note :=
  let packet := match c.phase, c'.phase with
    | .listen, .judge h _ => [.took h]
    | .play h _, .finish _ => [.played h]
    | _, _ => []
  packet ++ c'.alarm.toList.map fun a => .raised a now.tick

/-- What the chain knows of the packets, beside a reader of the notes. -/
def Recalls (c : TransmitChain) (m : Standing) : Prop :=
  match c.phase with
  | .attend | .listen =>
    (m.silenced = true → c.dropping = true ∨ ∃ h, m.last = some h ∧ h.endOfBurst = true) ∧
      (c.inBurst = true → m.fate = .played ∧ ∃ h, m.last = some h ∧ h.endOfBurst = false)
  | .judge h _ =>
    m.last = some h ∧ m.fate = .undecided ∧ (m.silenced = true → c.dropping = true ∧ h.startOfBurst = false)
  | .hold h _ _ | .play h _ => m.last = some h ∧ m.fate = .undecided ∧ m.silenced = false ∧ c.dropping = false
  | .finish h => m.last = some h ∧ m.fate = .played ∧ m.silenced = false ∧ c.dropping = false
  | .stopped => True

/-- The notes of a chain are in order, and the chain knows what they say. -/
structure Keeps (c : TransmitChain) (ns : List Note) : Prop where
  orderly : Orderly ns
  skipped : ns.countP Note.tellsSkip = skips (taken ns)
  expected : c.expected = (standing ns).last.map (·.sequence + 1)
  /-- Packets are dropped outside of bursts only. -/
  dropping : c.dropping = true → c.inBurst = false
  recalls : c.Recalls (standing ns)

section Moves

variable {now : Reading} {c c' : TransmitChain} {l : Link} {heard : List Bytes} {ns : List Note} {h : Header} {n : Nat}

/-- The chain changes in nothing that the notes are about. -/
theorem Keeps.silent (hk : c.Keeps ns) (he : c'.expected = c.expected) (hd : c'.dropping = true → c'.inBurst = false)
    (hr : c'.Recalls (standing ns)) : c'.Keeps ns :=
  ⟨hk.orderly, hk.skipped, he.trans hk.expected, hd, hr⟩

/-- A note that is about no other packet and tells of no skipped number. -/
theorem Keeps.add {m : Note} (hk : c.Keeps ns) (ha : (standing ns).Allows m) (ht : ∀ g, m ≠ .took g)
    (hs : m.tellsSkip = false) (he : c'.expected = c.expected) (hd : c'.dropping = true → c'.inBurst = false)
    (hr : c'.Recalls ((standing ns).read m)) : c'.Keeps (ns ++ [m]) where
  orderly := orderly_concat.2 ⟨hk.orderly, ha⟩
  skipped := by
    rw [List.countP_append, List.countP_singleton, hs, taken_append, taken_singleton_of_ne ht, List.append_nil]
    exact hk.skipped
  expected := by
    rw [last_standing, taken_append, taken_singleton_of_ne ht, List.append_nil, ← last_standing, he]
    exact hk.expected
  dropping := hd
  recalls := by rwa [standing_concat]

/-- A packet is noted, and that a number was skipped if it was. -/
theorem Keeps.takes {told : List Note} (hk : c.Keeps ns) (hp : c.phase = .listen) (hp' : c'.phase = .judge h n)
    (he : c'.expected = some (h.sequence + 1)) (hd : c'.dropping = c.dropping) (hb : c'.inBurst = c.inBurst)
    (hl : told.length = if c.expected.any (· != h.sequence) then 1 else 0) (ht : ∀ m ∈ told, m.tellsSkip = true) :
    c'.Keeps (ns ++ [.took h] ++ told) := by
  obtain ⟨hsil, -⟩ : _ ∧ (c.inBurst = true → _) := by simpa only [Recalls, hp] using hk.recalls
  have hskips : skips (taken (ns ++ [.took h])) = skips (taken ns) + told.length := by
    rw [taken_append, show taken [.took h] = [h] from rfl, skips_concat, ← last_standing, hl, hk.expected]
    cases (standing ns).last with
    | none => rfl
    | some g =>
      by_cases hs : h.sequence = g.sequence + 1
      · simp [hs]
      · simp [hs, Ne.symm hs]
  have htaken : taken told = [] := by
    rw [taken, List.filterMap_eq_nil_iff]
    intro m hm
    have := ht m hm
    cases m with
    | took g => simp [Note.tellsSkip, Note.code?] at this
    | played | raised => rfl
  have hstanding : standing (ns ++ [.took h] ++ told) = (standing ns).read (.took h) := by
    rw [← standing_concat]
    exact standing_tellsSkip ht
  refine ⟨?_, ?_, ?_, ?_, ?_⟩
  · exact ((orderly_concat (n := .took h)).2 ⟨hk.orderly, trivial⟩).tellsSkip ht
  · rw [List.countP_append, List.countP_append, List.countP_eq_length.2 ht, taken_append, htaken, List.append_nil,
      hskips, hk.skipped]
    rfl
  · rw [hstanding, he]
    rfl
  · rw [hd, hb]
    exact hk.dropping
  · rw [hstanding]
    simp only [Recalls, hp']
    refine ⟨rfl, rfl, fun hs => ?_⟩
    simp only [Standing.read, Bool.and_eq_true, Bool.not_eq_true', Bool.or_eq_false_iff] at hs
    obtain ⟨hs, hstart, hend⟩ := hs
    refine ⟨?_, hstart⟩
    rw [hd]
    refine (hsil hs).resolve_right ?_
    rintro ⟨g, hg, he⟩
    simp [hg, he] at hend

/-- The event that tells that a number was skipped before a packet. -/
def skipAlarm (now : Reading) (c : TransmitChain) (h : Header) : Option Alarm :=
  if c.expected.any (· != h.sequence) then
    some { code := if c.inBurst then .seqErrorInBurst else .seqError, tick := now.tick }
  else none

theorem note_eq (now : Reading) (ha : c.alarm = none) (h : Header) (n : Nat) :
    c.note now h n =
      { c with
        lastPacket := now.elapsed, expected := some (h.sequence + 1), phase := .judge h n
        alarm := c.skipAlarm now h } := by
  unfold note skipAlarm
  dsimp only
  split
  · rfl
  · rw [← ha]

theorem notes_hear (ha : c.alarm = none) (hp : c.phase = .listen) (h : Header) (n : Nat) :
    notes now c ((c.goTo .attend).note now h n) =
      [.took h] ++ (c.skipAlarm now h).toList.map fun a => .raised a now.tick := by
  rw [note_eq now (show (c.goTo .attend).alarm = none from ha)]
  simp only [notes, hp]
  rfl

theorem play_eq (now : Reading) (ha : c.alarm = none) (h : Header) (n : Nat) :
    c.play now h n =
      { c with
        phase := .finish h
        alarm := if n % c.format.sampleBytes ≠ 0 then
          some { code := .underflowInPacket, tick := now.tick } else none } := by
  unfold play
  dsimp only [goTo]
  split
  · rfl
  · rw [← ha]

theorem finish_eq (now : Reading) (ha : c.alarm = none) (h : Header) :
    c.finish now h =
      { c with
        inBurst := !h.endOfBurst, phase := .attend
        alarm := if h.endOfBurst then some { code := .burstAck, tick := now.tick } else none } := by
  unfold finish
  dsimp only
  split
  · rfl
  · rw [← ha]

/-- The burst of a packet that is not dropped is not silenced. -/
theorem Keeps.heeded (hk : c.Keeps ns) (hp : c.phase = .judge h n) (hd : (c.dropping && !h.startOfBurst) = false) :
    (standing ns).last = some h ∧ (standing ns).fate = .undecided ∧ (standing ns).silenced = false := by
  obtain ⟨hl, hf, hsil⟩ : _ ∧ _ ∧ (_ → _ ∧ _) := by simpa only [Recalls, hp] using hk.recalls
  refine ⟨hl, hf, ?_⟩
  rw [← Bool.not_eq_true]
  intro hs
  obtain ⟨hd', hs'⟩ := hsil hs
  simp [hd', hs'] at hd

/-- A step of which nothing is noted. -/
theorem Keeps.unnoted (hk : c.Keeps ns) (hn : notes now c c' = []) (he : c'.expected = c.expected)
    (hd : c'.dropping = true → c'.inBurst = false) (hr : c'.Recalls (standing ns)) :
    c'.Keeps (ns ++ notes now c c') := by
  rw [hn, List.append_nil]
  exact hk.silent he hd hr

/-- A packet is taken. -/
theorem Keeps.hears (hk : c.Keeps ns) (ha : c.alarm = none) (hp : c.phase = .listen) (h : Header) (n : Nat) :
    ((c.goTo .attend).note now h n).Keeps (ns ++ notes now c ((c.goTo .attend).note now h n)) := by
  rw [notes_hear ha hp, note_eq now (show (c.goTo .attend).alarm = none from ha), ← List.append_assoc]
  refine hk.takes hp rfl rfl rfl rfl ?_ fun m hm => ?_
  · rw [skipAlarm, List.length_map]
    split <;> rfl
  · obtain ⟨a, ha, rfl⟩ := List.mem_map.1 hm
    rw [Option.mem_toList, skipAlarm] at ha
    split at ha
    · cases ha
      cases c.inBurst <;> rfl
    · cases ha

/-- A packet is played. -/
theorem Keeps.plays (hk : c.Keeps ns) (ha : c.alarm = none) (hp : c.phase = .play h n) :
    (c.play now h n).Keeps (ns ++ notes now c (c.play now h n)) := by
  obtain ⟨hl, hf, hquiet, hd⟩ : _ ∧ _ ∧ _ ∧ _ := by simpa only [Recalls, hp] using hk.recalls
  have hplayed : (c.goTo (.finish h)).Keeps (ns ++ [.played h]) :=
    hk.add hl (by simp) rfl rfl hk.dropping ⟨hl, by simp [Standing.read, hf], hquiet, hd⟩
  have hquiet' : (standing (ns ++ [.played h])).silenced = false := by
    rw [standing_concat]
    exact hquiet
  rw [play_eq now ha]
  by_cases hw : n % c.format.sampleBytes ≠ 0
  · have hn : ∀ a : Alarm, notes now c { c with phase := .finish h, alarm := some a } =
        [.played h] ++ [.raised a now.tick] := fun a => by simp [notes, hp]
    rw [if_pos hw, hn, ← List.append_assoc]
    exact hplayed.add hquiet' (by simp) rfl rfl hk.dropping hplayed.recalls
  · have hn : notes now c { c with phase := .finish h, alarm := none } = [.played h] := by simp [notes, hp]
    rw [if_neg hw, hn]
    exact hplayed.silent rfl hk.dropping hplayed.recalls

/-- The chain is done with a packet that it played. -/
theorem Keeps.finishes (hk : c.Keeps ns) (ha : c.alarm = none) (hp : c.phase = .finish h) :
    (c.finish now h).Keeps (ns ++ notes now c (c.finish now h)) := by
  obtain ⟨hl, hf, hquiet, hd⟩ : _ ∧ _ ∧ _ ∧ _ := by simpa only [Recalls, hp] using hk.recalls
  rw [finish_eq now ha]
  cases he : h.endOfBurst with
  | true =>
    have hn : ∀ a : Alarm, notes now c { c with inBurst := !true, phase := .attend, alarm := some a } =
        [.raised a now.tick] := fun a => by simp [notes, hp]
    rw [if_pos rfl, hn]
    refine hk.add hquiet (by simp) rfl rfl (fun _ => rfl) ⟨fun hs => ?_, by simp⟩
    rw [show ((standing ns).read _).silenced = (standing ns).silenced from rfl, hquiet] at hs
    cases hs
  | false =>
    refine hk.unnoted (by simp [notes, hp]) rfl ?_ ⟨fun hs => ?_, fun _ => ⟨hf, h, hl, he⟩⟩
    · dsimp only
      rw [hd]
      exact fun h => by cases h
    · rw [hquiet] at hs
      cases hs

/-- Every move keeps the notes. -/
theorem Move.keeps (hm : Move now c l heard c') (hk : c.Keeps ns) : c'.Keeps (ns ++ notes now c c') := by
  have hr := hk.recalls
  cases hm with
  | told ha =>
    refine hk.unnoted ?_ rfl hk.dropping hr
    cases hp : c.phase <;> simp [notes, hp]
  | closed ha hp | timeless ha hp => exact hk.unnoted (by simp [notes, goTo, hp, ha]) rfl hk.dropping trivial
  | stopped ha hp => exact hk.unnoted (by simp [notes, hp, ha]) rfl hk.dropping hr
  | attended ha hp | unheard ha hp | due ha hp | early ha hp =>
    refine hk.unnoted (by simp [notes, goTo, hp, ha]) rfl hk.dropping ?_
    simp only [Recalls, hp] at hr
    exact hr
  | @injected words injections ha hp hi =>
    have hn : notes now c ({ c with injections }.raising .userPayload now.tick words) =
        [.raised ⟨.userPayload, now.tick, words⟩ now.tick] := by simp [notes, raising, hp]
    rw [hn]
    refine hk.add trivial (by simp) rfl rfl hk.dropping ?_
    simp only [Recalls, raising, hp] at hr ⊢
    exact hr
  | stalled ha hp hb hl =>
    have hn : notes now c ({ c with inBurst := false, phase := .attend }.raising .underflow now.tick) =
        [.raised { code := .underflow, tick := now.tick } now.tick] := by simp [notes, raising, hp]
    obtain ⟨hsil, hburst⟩ : _ ∧ (_ → _) := by simpa only [Recalls, hp] using hr
    rw [hn]
    exact hk.add (hburst hb) (by simp) rfl rfl (fun _ => rfl) ⟨hsil, by simp [raising]⟩
  | @heard f h n ha hp hf => exact hk.hears ha hp h n
  | @dropped h n ha hp hd hs =>
    obtain ⟨hl, hf, hsil⟩ : _ ∧ _ ∧ (_ → _ ∧ _) := by simpa only [Recalls, hp] using hr
    refine hk.unnoted (by simp [notes, hp, ha]) rfl (fun _ => hk.dropping hd) ⟨fun _ => ?_, fun hb => ?_⟩
    · cases he : h.endOfBurst with
      | true => exact .inr ⟨h, hl, he⟩
      | false => exact .inl rfl
    · rw [hk.dropping hd] at hb
      cases hb
  | @late h n ha hp hd ht hlate =>
    obtain ⟨hl, hf, hquiet⟩ := hk.heeded hp hd
    have hn : notes now c ({ c with inBurst := false, dropping := !h.endOfBurst, phase := .attend }.raising .timeError
        h.timestamp.toNat) = [.raised { code := .timeError, tick := h.timestamp.toNat } now.tick] := by
      simp [notes, raising, hp]
    rw [hn]
    refine hk.add ⟨hquiet, h, hl, ht, rfl, hlate⟩ (by simp) rfl rfl (fun _ => rfl) ⟨fun _ => ?_, by simp [raising]⟩
    cases he : h.endOfBurst with
    | true => exact .inr ⟨h, hl, he⟩
    | false => exact .inl rfl
  | @accepted h n ha hp hd ht =>
    obtain ⟨hl, hf, hquiet⟩ := hk.heeded hp hd
    refine hk.unnoted ?_ rfl (by simp) ?_
    · cases h.hasTime <;> simp [notes, hp, ha]
    · cases h.hasTime <;> exact ⟨hl, hf, hquiet, rfl⟩
  | @played h n ha hp => exact hk.plays ha hp
  | @finished h ha hp => exact hk.finishes ha hp

/-- The packets that are noted are those in the frames that were taken. -/
theorem Move.takes (hm : Move now c l heard c') :
    taken (notes now c c') = heard.filterMap fun f => (packet? f).map (·.1) := by
  have hraised : ∀ o : Option Alarm, taken (o.toList.map fun a => .raised a now.tick) = [] := by
    rintro (_ | a) <;> rfl
  cases hm with
  | told ha => cases hp : c.phase <;> simp [notes, taken, hp]
  | @heard f h n ha hp hf =>
    have htold : taken ([.took h] ++ (c.skipAlarm now h).toList.map fun a => .raised a now.tick) = [h] := by
      rw [taken_append, hraised]
      rfl
    rw [notes_hear ha hp, htold, List.filterMap_cons_some (by rw [hf]; rfl)]
    rfl
  | unheard ha hp hl hn =>
    have hf : heard.filterMap (fun f => (packet? f).map (·.1)) = [] := by
      rw [List.filterMap_eq_nil_iff]
      intro f hf
      rw [hn f hf]
      rfl
    rw [hf]
    simp [notes, taken, hp, goTo, ha]
  | @played h n ha hp =>
    rw [play_eq now ha]
    simp only [notes, hp]
    exact hraised _
  | @finished h ha hp =>
    rw [finish_eq now ha]
    simp only [notes, hp]
    exact hraised _
  | @accepted h n ha hp hd ht => cases h.hasTime <;> simp [notes, taken, hp, ha]
  | closed ha hp | attended ha hp | timeless ha hp | due ha hp | early ha hp =>
    simp [notes, taken, hp, goTo, ha]
  | dropped ha hp | stopped ha hp => simp [notes, taken, hp, ha]
  | injected ha hp | stalled ha hp | late ha hp => simp [notes, taken, hp, raising]

/-- The chain waits for a frame. -/
theorem listens_of_pause (h : c.pause = .frame poll) : c.alarm = none ∧ c.phase = .listen := by
  unfold pause at h
  cases ha : c.alarm with
  | some a => simp [ha] at h
  | none => cases hp : c.phase <;> simp_all

/-- A frame without a data packet is taken, and that is all. -/
theorem step_unreadable (now : Reading) {f : Bytes} {fs : List Bytes} (hc : c.pause = .frame poll)
    (hf : l.toDevice.pending = f :: fs) (hn : packet? f = none) :
    notes now c (c.goTo .attend) = [] ∧
      ∃ lane : Lane, lane.pending = fs ∧ c.step now l = (c.goTo .attend, { l with toDevice := lane }) := by
  obtain ⟨ha, hp⟩ := listens_of_pause hc
  refine ⟨by simp [notes, goTo, hp, ha], ?_⟩
  rcases Terminal.take_device l with ⟨-, hnone⟩ | ⟨g, lane, ht, hg, -⟩
  · rw [hnone] at hf
    cases hf
  · rw [hg] at hf
    obtain ⟨rfl, rfl⟩ := List.cons.inj hf
    refine ⟨lane, rfl, ?_⟩
    unfold step
    rw [ha]
    dsimp only
    rw [hp]
    dsimp only
    unfold listen
    dsimp only
    rw [ht]
    dsimp only
    unfold packet? at hn
    cases hd : Header.decode g with
    | error e => rfl
    | ok r =>
      have hk : r.1.kind ≠ .data := by
        intro hk
        rw [hd] at hn
        simp [hk] at hn
      dsimp only
      rw [if_neg hk]

end Moves

end TransmitChain

/-! ## Over time -/

/-- A transmit chain on its link. -/
structure Watch where
  chain : TransmitChain
  link : Link
  /-- The frames that the chain took. -/
  heard : List Bytes := []
  notes : List Note := []

/-- What happens while a chain is watched. -/
inductive WatchAction where
  /-- The chain takes a step. -/
  | chain (now : Reading)
  /-- The host sends bytes, if it has an idle frame. -/
  | post (bs : Bytes)
  /-- Words are to be raised. -/
  | inject (words : Words)
  /-- Anything becomes of what was sent to the host. -/
  | host (f : Lane → Lane)
  /-- An end of the link is given up. -/
  | close

namespace Watch

/-- A chain at its start. -/
def fresh (channel : Nat) (format : WireFormat) (stall : Nat) (injections : Queue Words) (link : Link) : Watch :=
  { chain := { channel, format, stall, injections }, link }

/-- The chain takes a step. -/
def tick (now : Reading) (x : Watch) : Watch :=
  let (chain, link) := x.chain.step now x.link
  let heard := x.link.toDevice.pending.take (x.link.toDevice.pending.length - link.toDevice.pending.length)
  { chain, link, heard := x.heard ++ heard, notes := x.notes ++ x.chain.notes now chain }

def step (x : Watch) : WatchAction → Watch
  | .chain now => x.tick now
  | .post bs => { x with link := ((Terminal.ofEnd .host).sendBytes 0 bs x.link).2 }
  | .inject words =>
    { x with chain := { x.chain with injections := (x.chain.injections.push? words).getD x.chain.injections } }
  | .host f => { x with link := { x.link with toHost := f x.link.toHost } }
  | .close => { x with link := x.link.close }

def run (x : Watch) (as : List WatchAction) : Watch := as.foldl step x

/-- The notes are kept, and are about the packets that were taken. -/
structure Kept (x : Watch) : Prop where
  keeps : x.chain.Keeps x.notes
  packets : taken x.notes = x.heard.filterMap fun f => (TransmitChain.packet? f).map (·.1)

variable {x : Watch}

theorem kept_fresh (channel : Nat) (format : WireFormat) (stall : Nat) (injections : Queue Words) (link : Link) :
    (fresh channel format stall injections link).Kept where
  keeps := ⟨orderly_nil, rfl, rfl, fun _ => rfl, by simp [TransmitChain.Recalls, fresh, standing]⟩
  packets := rfl

theorem Kept.tick (h : x.Kept) (now : Reading) : (x.tick now).Kept := by
  obtain ⟨heard, hm, hd⟩ := TransmitChain.step_moves now x.chain x.link
  have hheard : (x.tick now).heard = x.heard ++ heard := by
    have hl : x.link.toDevice.pending.length - (x.chain.step now x.link).2.toDevice.pending.length = heard.length := by
      rw [hd.heard, List.length_append, Nat.add_sub_cancel]
    have ht : x.link.toDevice.pending.take heard.length = heard := by rw [hd.heard, List.take_left]
    simp only [Watch.tick, hl, ht]
  refine ⟨hm.keeps h.keeps, ?_⟩
  rw [hheard, List.filterMap_append, ← h.packets, ← hm.takes, ← taken_append]
  rfl

theorem Kept.step (h : x.Kept) (a : WatchAction) : (x.step a).Kept := by
  cases a with
  | chain now => exact h.tick now
  | inject words =>
    exact ⟨⟨h.keeps.orderly, h.keeps.skipped, h.keeps.expected, h.keeps.dropping, h.keeps.recalls⟩, h.packets⟩
  | post | host | close => exact ⟨h.keeps, h.packets⟩

theorem Kept.run (h : x.Kept) (as : List WatchAction) : (x.run as).Kept := by
  induction as generalizing x with
  | nil => exact h
  | cons a as ih => exact ih (h.step a)

end Watch

/-- Whatever frames come in on the link of a transmit chain, at whatever times, its events
account for every packet and every burst, the packets that it takes are those in the
frames, and a frame without a data packet is taken and changes nothing else. -/
theorem bursts_accounted (channel : Nat) (format : WireFormat) (stall : Nat) (injections : Queue Words) (link : Link)
    (as : List WatchAction) :
    let y := (Watch.fresh channel format stall injections link).run as
    Accountable y.notes ∧ (taken y.notes = y.heard.filterMap fun f => (TransmitChain.packet? f).map (·.1)) ∧
      ∀ (now : Reading) (f : Bytes) (fs : List Bytes), y.chain.pause = .frame poll →
        y.link.toDevice.pending = f :: fs → TransmitChain.packet? f = none →
        ∃ lane : Lane, lane.pending = fs ∧ y.step (.chain now) =
          { y with
            chain := y.chain.goTo .attend, link := { y.link with toDevice := lane }, heard := y.heard ++ [f] } := by
  intro y
  have hy : y.Kept := (Watch.kept_fresh channel format stall injections link).run as
  refine ⟨hy.keeps.orderly.accountable hy.keeps.skipped, hy.packets, fun now f fs hc hf hn => ?_⟩
  obtain ⟨hnotes, lane, hl, hs⟩ := TransmitChain.step_unreadable now hc hf hn
  refine ⟨lane, hl, ?_⟩
  simp only [Watch.step, Watch.tick, hs, hl, hf, hnotes, List.append_nil]
  simp

/-- A packet that comes too late silences its burst, with a number skipped and bytes that
are no packet in it, up to the packet behind its end; that one breaks off inside a sample,
and then nothing comes. -/
theorem bursts_accounted_late :
    let now (tick : Nat) : Reading := { elapsed := tick, tick, left? := fun _ => some 0 }
    let steps (n tick : Nat) : List WatchAction := List.replicate n (.chain (now tick))
    let bytes (h : Header) (n : Nat) : Bytes := { h with payloadLength := UInt32.ofNat n }.bytes ++ List.replicate n 0
    let before := [.post (bytes { hasTime := true, timestamp := 5, startOfBurst := true } 4),
      .post (bytes { sequence := 2 } 4), .post [1, 2, 3]] ++ steps 9 9
    let after := [.chain (now 9), .post (bytes { sequence := 3, endOfBurst := true } 4),
      .post (bytes { sequence := 4 } 6)] ++ steps 12 9 ++ steps 3 20
    let g : Geometry := { recvFrameSize := 40, sendFrameSize := 40, recvFrames := 1, sendFrames := 3 }
    ∃ l, Link.new g = .ok l ∧
      let x := Watch.fresh 0 .sc16 5 (Queue.new 1) l
      (x.run before).notes.filterMap Note.code? = [.timeError, .seqError] ∧
      (∃ lane : Lane, lane.pending = [] ∧ (x.run before).step (.chain (now 9)) =
        { x.run before with
          chain := (x.run before).chain.goTo .attend, link := { (x.run before).link with toDevice := lane }
          heard := (x.run before).heard ++ [[1, 2, 3]] }) ∧
      (x.run (before ++ after)).notes.filterMap Note.code? = [.timeError, .seqError, .underflowInPacket, .underflow] ∧
      (taken (x.run (before ++ after)).notes).map (·.sequence) = [0, 2, 3, 4] ∧
      Accountable (x.run (before ++ after)).notes := by
  intro now steps bytes before after g
  have hl : ∃ l, Link.new g = .ok l := ⟨_, rfl⟩
  obtain ⟨l, hl⟩ := hl
  have hjunk := (bursts_accounted 0 .sc16 5 (Queue.new 1) l before).2.2 (now 9) [1, 2, 3] []
  refine ⟨l, hl, ?_, hjunk ?_ ?_ rfl, ?_, ?_, (bursts_accounted 0 .sc16 5 (Queue.new 1) l (before ++ after)).1⟩ <;>
    (cases hl; decide +kernel)

end RadioStream.Sim
