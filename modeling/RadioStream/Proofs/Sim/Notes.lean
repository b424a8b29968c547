import RadioStream.Proofs.Sim.Story
import RadioStream.Sim.TransmitChain
/-!
# Notes on a transmit chain

What a transmit chain does with data packets and which events it raises, one note after the
other. `Accountable` says what holds of such notes if the chain keeps its books: sequence
numbers that were skipped were told of, a late packet silences its burst, and only a packet
that was played and does not end its burst can run dry.

A reader of the notes needs to remember little: the last packet, what became of it, and
whether its burst is silenced (`Standing`). `Orderly` says that every note is one that this
reader allows; `Orderly.accountable` reads from there what was noted before.
-/

namespace RadioStream.Sim

/-- What a transmit chain does. -/
inductive Note where
  /-- It takes a data packet. -/
  | took (h : Header)
  /-- It plays a packet. -/
  | played (h : Header)
  /-- It raises an event, while the clock shows a tick. -/
  | raised (a : Alarm) (shown : Nat)

/-- The packets that were taken. -/
def taken (ns : List Note) : List Header :=
  ns.filterMap fun
    | .took h => some h
    | _ => none

/-- Pairs of neighbours whose numbers do not follow each other. -/
def skips : List Header → Nat
  | g :: h :: hs => (if h.sequence = g.sequence + 1 then 0 else 1) + skips (h :: hs)
  | _ => 0

namespace Note

/-- The event that is raised. -/
def code? : Note → Option EventCode
  | raised a _ => some a.code
  | _ => none

/-- It tells that a number was skipped. -/
def tellsSkip (n : Note) : Bool := n.code? == some .seqError || n.code? == some .seqErrorInBurst

end Note

/-- Notes of a chain that accounts for every packet and every burst. -/
structure Accountable (ns : List Note) : Prop where
  /-- Every number that was skipped is told of once. -/
  skipped : ns.countP Note.tellsSkip = skips (taken ns)
  /-- A packet that is reported late is one: the clock was past its time. -/
  late : ∀ before a shown after, ns = before ++ .raised a shown :: after → a.code = .timeError →
    ∃ h, (taken before).getLast? = some h ∧ h.hasTime = true ∧ a.tick = h.timestamp.toNat ∧ a.tick < shown
  /-- After a late packet nothing more is told of its burst, up to a packet that starts a
  burst or follows the end of one. -/
  silenced : ∀ before a shown mid b shown' after,
    ns = before ++ .raised a shown :: (mid ++ .raised b shown' :: after) → a.code = .timeError →
      b.code = .burstAck ∨ b.code = .underflowInPacket ∨ b.code = .timeError →
      ∃ mid₁ h mid₂, mid = mid₁ ++ .took h :: mid₂ ∧
        (h.startOfBurst = true ∨ ∃ g, (taken (before ++ mid₁)).getLast? = some g ∧ g.endOfBurst = true)
  /-- The chain runs dry after a packet that it played and that does not end its burst, and
  does so once before the next packet. -/
  dry : ∀ before a shown after, ns = before ++ .raised a shown :: after → a.code = .underflow →
    ∃ early h late, before = early ++ .took h :: late ∧ taken late = [] ∧ .played h ∈ late ∧
      h.endOfBurst = false ∧ ∀ n ∈ late, n.code? ≠ some .underflow

/-! ## Packets taken -/

section Taken

variable {ns : List Note}

theorem taken_append (ns ms : List Note) : taken (ns ++ ms) = taken ns ++ taken ms := List.filterMap_append

theorem taken_singleton_of_ne {n : Note} (h : ∀ g, n ≠ .took g) : taken [n] = [] := by
  cases n with
  | took g => exact absurd rfl (h g)
  | played | raised => rfl

theorem skips_concat (hs : List Header) (h : Header) :
    skips (hs ++ [h]) = skips hs + if hs.getLast?.any (fun g => h.sequence ≠ g.sequence + 1) then 1 else 0 := by
  induction hs with
  | nil => rfl
  | cons g hs ih =>
    cases hs with
    | nil => by_cases he : h.sequence = g.sequence + 1 <;> simp [skips, he]
    | cons g' hs =>
      rw [List.cons_append, List.cons_append, skips, ← List.cons_append, ih, skips, List.getLast?_cons_cons,
        Nat.add_assoc]

end Taken

/-! ## A reader of notes -/

/-- What becomes of a packet. -/
inductive Fate where
  /-- Nothing yet. -/
  | undecided
  | played
  /-- The chain ran dry after it. -/
  | spent
deriving DecidableEq

/-- What a reader of notes remembers. -/
structure Standing where
  /-- The last packet. -/
  last : Option Header := none
  fate : Fate := .spent
  /-- Whether the burst is silenced by a late packet. -/
  silenced : Bool := false

namespace Standing

/-- One more note. -/
def read (m : Standing) : Note → Standing
  | .took h =>
    { last := some h, fate := .undecided
      silenced := m.silenced && !(h.startOfBurst || m.last.any (·.endOfBurst)) }
  | .played _ => { m with fate := if m.fate = .undecided then .played else m.fate }
  | .raised a _ => match a.code with
    | .timeError => { m with silenced := true }
    | .underflow => { m with fate := .spent }
    | _ => m

/-- The notes that may follow. -/
def Allows (m : Standing) : Note → Prop
  | .took _ => True
  | .played h => m.last = some h
  | .raised a shown => match a.code with
    | .timeError => m.silenced = false ∧
        ∃ h, m.last = some h ∧ h.hasTime = true ∧ a.tick = h.timestamp.toNat ∧ a.tick < shown
    | .burstAck | .underflowInPacket => m.silenced = false
    | .underflow => m.fate = .played ∧ ∃ h, m.last = some h ∧ h.endOfBurst = false
    | _ => True

/-- That a number was skipped says nothing of what becomes of the packet. -/
theorem read_of_tellsSkip {n : Note} (hn : n.tellsSkip = true) (m : Standing) : m.read n = m ∧ m.Allows n := by
  cases n with
  | took | played => simp [Note.tellsSkip, Note.code?] at hn
  | raised a shown =>
    have hc : a.code = .seqError ∨ a.code = .seqErrorInBurst := by simpa [Note.tellsSkip, Note.code?] using hn
    rcases hc with hc | hc <;> simp [read, Allows, hc]

end Standing

/-- What a reader remembers of notes. -/
def standing (ns : List Note) : Standing := ns.foldl Standing.read {}

/-- Each note is one that those before it allow. -/
def Orderly (ns : List Note) : Prop := ∀ before n after, ns = before ++ n :: after → (standing before).Allows n

section Reading

variable {ns : List Note}

theorem standing_concat (ns : List Note) (n : Note) : standing (ns ++ [n]) = (standing ns).read n :=
  List.foldl_concat ..

theorem orderly_nil : Orderly [] := by
  intro before n after h
  simp at h

theorem orderly_concat {n : Note} : Orderly (ns ++ [n]) ↔ Orderly ns ∧ (standing ns).Allows n := by
  constructor
  · intro h
    exact ⟨fun before m after he => h before m (after ++ [n]) (by simp [he]), h ns n [] rfl⟩
  · rintro ⟨h, hn⟩ before m after he
    rcases concat_eq_append_cons_iff.1 he with ⟨-, rfl, rfl⟩ | ⟨front, -, rfl⟩
    · exact hn
    · exact h before m front rfl

/-- Notes that numbers were skipped. -/
theorem standing_tellsSkip {told : List Note} (ht : ∀ m ∈ told, m.tellsSkip = true) :
    standing (ns ++ told) = standing ns := by
  induction told using List.reverseRecOn with
  | nil => rw [List.append_nil]
  | append_singleton told m ih =>
    rw [List.forall_mem_append, List.forall_mem_singleton] at ht
    rw [← List.append_assoc, standing_concat, (Standing.read_of_tellsSkip ht.2 _).1, ih ht.1]

theorem Orderly.tellsSkip (ho : Orderly ns) {told : List Note} (ht : ∀ m ∈ told, m.tellsSkip = true) :
    Orderly (ns ++ told) := by
  induction told using List.reverseRecOn with
  | nil => rwa [List.append_nil]
  | append_singleton told m ih =>
    rw [List.forall_mem_append, List.forall_mem_singleton] at ht
    rw [← List.append_assoc]
    exact orderly_concat.2 ⟨ih ht.1, (Standing.read_of_tellsSkip ht.2 _).2⟩

theorem last_standing (ns : List Note) : (standing ns).last = (taken ns).getLast? := by
  induction ns using List.reverseRecOn with
  | nil => rfl
  | append_singleton ns n ih =>
    rw [standing_concat, taken_append]
    cases n with
    | took h => exact (List.getLast?_concat).symm
    | played h =>
      rw [taken_singleton_of_ne (by simp), List.append_nil]
      exact ih
    | raised a shown =>
      rw [taken_singleton_of_ne (by simp), List.append_nil, ← ih, Standing.read]
      split <;> rfl

/-- Where a burst is no longer silenced, a packet has ended the silence. -/
theorem exists_release {before mid : List Note} (hb : (standing before).silenced = true)
    (hm : (standing (before ++ mid)).silenced = false) :
    ∃ mid₁ h mid₂, mid = mid₁ ++ .took h :: mid₂ ∧
      (h.startOfBurst = true ∨ ∃ g, (taken (before ++ mid₁)).getLast? = some g ∧ g.endOfBurst = true) := by
  induction mid using List.reverseRecOn with
  | nil =>
    rw [List.append_nil, hb] at hm
    cases hm
  | append_singleton mid n ih =>
    by_cases hs : (standing (before ++ mid)).silenced = true
    · -- then it is the last note that ends it
      rw [← List.append_assoc, standing_concat] at hm
      cases n with
      | took h =>
        refine ⟨mid, h, [], rfl, ?_⟩
        simp only [Standing.read, hs, Bool.true_and, Bool.not_eq_false', Bool.or_eq_true, Option.any_eq_true] at hm
        rw [← last_standing]
        exact hm
      | played h =>
        rw [Standing.read, hs] at hm
        cases hm
      | raised a shown =>
        rw [Standing.read] at hm
        split at hm <;> simp [hs] at hm
    · obtain ⟨mid₁, h, mid₂, rfl, hr⟩ := ih (by simpa using hs)
      exact ⟨mid₁, h, mid₂ ++ [n], by simp, hr⟩

/-- As long as the chain did not run dry after the last packet. -/
theorem exists_last (ho : Orderly ns) (hf : (standing ns).fate ≠ .spent) :
    ∃ early h late, ns = early ++ .took h :: late ∧ (standing ns).last = some h ∧ taken late = [] ∧
      (∀ n ∈ late, n.code? ≠ some .underflow) ∧ ((standing ns).fate = .played → .played h ∈ late) := by
  induction ns using List.reverseRecOn with
  | nil => exact absurd rfl hf
  | append_singleton ns n ih =>
    obtain ⟨hns, hn⟩ := orderly_concat.1 ho
    rw [standing_concat] at hf ⊢
    cases n with
    | took h => exact ⟨ns, h, [], rfl, rfl, rfl, by simp, by simp [Standing.read]⟩
    | played g =>
      have hf' : (standing ns).fate ≠ .spent := by
        intro hs
        simp [Standing.read, hs] at hf
      obtain ⟨early, h, late, he, hl, ht, hu, hp⟩ := ih hns hf'
      have hg : g = h := Option.some.inj (hn.symm.trans hl)
      subst hg
      refine ⟨early, g, late ++ [.played g], by simp [he], hl, ?_, ?_, fun _ => by simp⟩
      · rw [taken_append, ht, taken_singleton_of_ne (by simp), List.nil_append]
      · intro n hn
        rcases List.mem_append.1 hn with hn | hn
        · exact hu n hn
        · rw [List.mem_singleton.1 hn]
          simp [Note.code?]
    | raised a shown =>
      by_cases hc : a.code = .underflow
      · rw [Standing.read, hc] at hf
        exact absurd rfl hf
      · have hsame : ((standing ns).read (.raised a shown)).fate = (standing ns).fate ∧
            ((standing ns).read (.raised a shown)).last = (standing ns).last := by
          rw [Standing.read]
          split
          · exact ⟨rfl, rfl⟩
          · next h => exact absurd h hc
          · exact ⟨rfl, rfl⟩
        rw [hsame.1] at hf ⊢
        rw [hsame.2]
        obtain ⟨early, h, late, he, hl, ht, hu, hp⟩ := ih hns hf
        refine ⟨early, h, late ++ [.raised a shown], by simp [he], hl, ?_, ?_, fun h => by simp [hp h]⟩
        · rw [taken_append, ht, taken_singleton_of_ne (by simp), List.nil_append]
        · intro n hn
          rcases List.mem_append.1 hn with hn | hn
          · exact hu n hn
          · rw [List.mem_singleton.1 hn]
            simp [Note.code?, hc]

/-- What the reader allows at each note is what can be read of those before it. -/
theorem Orderly.accountable (ho : Orderly ns) (hs : ns.countP Note.tellsSkip = skips (taken ns)) :
    Accountable ns where
  skipped := hs
  late before a shown after he hc := by
    have h := ho before _ after he
    simp only [Standing.Allows, hc, last_standing] at h
    exact h.2
  silenced before a shown mid b shown' after he ha hb := by
    have hbefore : (standing (before ++ [.raised a shown])).silenced = true := by
      rw [standing_concat, Standing.read, ha]
    have hmid : (standing (before ++ [.raised a shown] ++ mid)).silenced = false := by
      have h := ho (before ++ [.raised a shown] ++ mid) (.raised b shown') after (by simp [he])
      rcases hb with hb | hb | hb <;> simp only [Standing.Allows, hb] at h
      · exact h
      · exact h
      · exact h.1
    obtain ⟨mid₁, h, mid₂, hm, hr⟩ := exists_release hbefore hmid
    refine ⟨mid₁, h, mid₂, hm, ?_⟩
    rwa [taken_append, taken_append, taken_singleton_of_ne (by simp), List.append_nil, ← taken_append] at hr
  dry before a shown after he hc := by
    have h := ho before _ after he
    simp only [Standing.Allows, hc] at h
    obtain ⟨hf, g, hg, hend⟩ := h
    have hbefore : Orderly before := fun b n c hb => ho b n (c ++ .raised a shown :: after) (by simp [he, hb])
    obtain ⟨early, h, late, hs, hl, ht, hu, hp⟩ := exists_last hbefore (by simp [hf])
    rw [hg] at hl
    cases hl
    exact ⟨early, g, late, hs, ht, hp hf, hend, hu⟩

end Reading

end RadioStream.Sim
