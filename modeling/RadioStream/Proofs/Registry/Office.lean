import Mathlib.Data.List.Dedup
import Mathlib.Data.List.Perm.Basic
import RadioStream.Proofs.Registry.Discovery
import RadioStream.Proofs.Registry.Sessions
/-!
# One session for each device

An `Office` is a registry with those who ask it for sessions. They look for devices on
their own; at the desk, where the session with a device is found or made, there is one of
them at a time. Sessions that were handed out are shared and let go of at any moment, also
in the middle of what is done at the desk.

`Office.Kept` is what every action keeps. `sessions_orderly` draws from it what callers can
count on after any actions: a device has one session at a time, which all who ask for the
device share, and is made only while there is none.
-/

namespace RadioStream

/-- What is done at the desk. -/
inductive Service (δ σ : Type) where
  /-- There is no session with the device, so it is made. -/
  | making (c : Candidate δ σ)
  /-- The device is made and its session has started. -/
  | made (c : Candidate δ σ) (id : Nat)

/-- A hold of a session that was handed out. -/
structure Holding where
  id : Nat
  /-- The address by which the device was found. -/
  found : Address
deriving DecidableEq

inductive OfficeAction (δ σ : Type) where
  /-- A family is added. -/
  | register (f : Family δ σ)
  /-- Somebody looks for a device and waits for the desk, if there is one. -/
  | ask (hint : Address) (kind : DeviceKind) (which : Nat)
  /-- One of those who wait comes to the desk. -/
  | enter (i : Nat)
  /-- The device is made. -/
  | make
  /-- The new session is remembered and handed out. -/
  | record
  /-- A session that was handed out is shared with one more. -/
  | share (i : Nat)
  /-- A hold of a session is let go of. -/
  | drop (i : Nat)

/-- A registry and those who ask it for sessions. -/
structure Office (δ σ : Type) where
  registry : Registry δ σ
  outside : σ
  /-- The devices that were chosen by those who wait for the desk. -/
  waiting : List (Candidate δ σ) := []
  desk : Option (Service δ σ) := none
  held : List Holding := []

namespace Service

variable {δ σ : Type}

def candidate : Service δ σ → Candidate δ σ
  | making c => c
  | made c _ => c

/-- The session that was started and not yet handed out. -/
def inHand : Service δ σ → List Nat
  | making _ => []
  | made _ id => [id]

end Service

namespace Office

variable {δ σ : Type}

/-- An office that nobody has asked for anything. -/
def fresh (families : List (Family δ σ)) (complete : Address → Address) (digest : Bytes → Bytes) (outside : σ) :
    Office δ σ :=
  { registry := { families, complete, digest }, outside }

/-- Someone comes to the desk. The session with the device is handed out if there is one. -/
def enter (x : Office δ σ) (i : Nat) (c : Candidate δ σ) : Office δ σ :=
  let x := { x with waiting := x.waiting.eraseIdx i }
  match x.registry.session? c.identity with
  | some old => { x with registry := x.registry.hold old.id, held := ⟨old.id, c.found⟩ :: x.held }
  | none => { x with desk := some (.making c) }

def step (x : Office δ σ) : OfficeAction δ σ → Office δ σ
  | .register f => { x with registry := x.registry.register f }
  | .ask hint kind which => match x.registry.choose hint kind which with
    | .ok c => { x with waiting := x.waiting ++ [c] }
    | .error _ => x
  | .enter i => match x.desk, x.waiting[i]? with
    | none, some c => x.enter i c
    | _, _ => x
  | .make => match x.desk with
    | some (.making c) => match c.family.make (x.registry.arguments c) x.outside with
      | (.error _, outside) => { x with outside, desk := none }
      | (.ok device, outside) =>
        let (new, registry) := x.registry.start device
        { x with registry, outside, desk := some (.made c new.id) }
    | _ => x
  | .record => match x.desk with
    | some (.made c id) =>
      { x with registry := x.registry.prune.remember c.identity id, desk := none, held := ⟨id, c.found⟩ :: x.held }
    | _ => x
  | .share i => match x.held[i]? with
    | some a => { x with registry := x.registry.hold a.id, held := a :: x.held }
    | none => x
  | .drop i => match x.held[i]? with
    | some a => { x with registry := x.registry.release a.id, held := x.held.eraseIdx i }
    | none => x

def run (x : Office δ σ) (as : List (OfficeAction δ σ)) : Office δ σ := as.foldl step x

/-- Which device a session that was handed out is with. -/
def deviceOf (x : Office δ σ) (a : Holding) : Bytes := x.registry.identityOf a.found

/-- The sessions that were started, as often as they are held. -/
def holds (x : Office δ σ) : List Nat := x.desk.elim [] Service.inHand ++ x.held.map (·.id)

/-- The devices chosen by those who wait or are at the desk. -/
def candidates (x : Office δ σ) : List (Candidate δ σ) := x.waiting ++ (x.desk.map Service.candidate).toList

/-! ## What every action keeps -/

/-- The sessions are those that are held, and the sessions handed out are those
remembered. While someone is at the desk there is no session with their device that was
handed out. -/
structure Kept (x : Office δ σ) : Prop where
  tallied : x.registry.Tallied x.holds
  remembered : ∀ a ∈ x.held, (x.deviceOf a, a.id) ∈ x.registry.remembered
  inHand : ∀ s, x.desk = some s → ∀ id ∈ s.inHand, id ∉ x.registry.remembered.map (·.2)
  absent : ∀ s, x.desk = some s → ∀ a ∈ x.held, x.deviceOf a ≠ s.candidate.identity
  named : ∀ c ∈ x.candidates, c.identity = x.registry.identityOf c.found

variable {x : Office δ σ}

namespace Kept

theorem mem_holds {a : Holding} (ha : a ∈ x.held) : a.id ∈ x.holds :=
  List.mem_append_right _ (List.mem_map_of_mem ha)

/-- A remembered session that goes on was handed out. -/
theorem exists_held (h : x.Kept) {k : Bytes} {id : Nat} (hm : (k, id) ∈ x.registry.remembered) (hid : id ∈ x.holds) :
    ∃ a ∈ x.held, a.id = id ∧ x.deviceOf a = k := by
  rcases List.mem_append.1 hid with hd | hid
  · cases hs : x.desk with
    | none =>
      rw [hs] at hd
      cases hd
    | some s =>
      rw [hs] at hd
      exact absurd (List.mem_map_of_mem (f := Prod.snd) hm) (h.inHand s hs id hd)
  · obtain ⟨a, ha, rfl⟩ := List.mem_map.1 hid
    have he := List.inj_on_of_nodup_map h.tallied.numbers (h.remembered a ha) hm rfl
    exact ⟨a, ha, rfl, (Prod.mk.inj he).1⟩

/-- The session with a device is the one that was handed out. -/
theorem session?_of_held (h : x.Kept) {a : Holding} (ha : a ∈ x.held) :
    ∃ s, x.registry.session? (x.deviceOf a) = some s ∧ s.id = a.id :=
  h.tallied.session?_eq_some_iff.2 ⟨h.remembered a ha, mem_holds ha⟩

theorem session?_eq_none_iff (h : x.Kept) {k : Bytes} :
    x.registry.session? k = none ↔ ∀ a ∈ x.held, x.deviceOf a ≠ k := by
  rw [h.tallied.session?_eq_none_iff]
  constructor
  · rintro hn a ha rfl
    exact hn _ (mem_holds ha) (h.remembered a ha)
  · intro hn id hid hm
    obtain ⟨a, ha, -, hk⟩ := h.exists_held hm hid
    exact hn a ha hk

/-! ## Actions -/

theorem enter (h : x.Kept) {i : Nat} {c : Candidate δ σ} (hd : x.desk = none) (hc : x.waiting[i]? = some c) :
    (x.enter i c).Kept := by
  have hmem : c ∈ x.candidates := List.mem_append_left _ (List.mem_of_getElem? hc)
  have hname := h.named c hmem
  have hwait : ∀ c' ∈ x.waiting.eraseIdx i, c' ∈ x.candidates :=
    fun c' hc' => List.mem_append_left _ ((List.eraseIdx_sublist _ _).subset hc')
  have ht := h.tallied
  rw [holds, hd] at ht
  cases hs : x.registry.session? c.identity with
  | some old =>
    obtain ⟨hm, hid⟩ := h.tallied.session?_eq_some_iff.1 ⟨old, hs, rfl⟩
    rw [holds, hd] at hid
    have he : x.enter i c = { x with
        waiting := x.waiting.eraseIdx i, registry := x.registry.hold old.id
        held := ⟨old.id, c.found⟩ :: x.held } := by
      simp only [Office.enter, hs]
    rw [he]
    refine ⟨?_, ?_, fun s hs' => ?_, fun s hs' => ?_, fun c' hc' => ?_⟩
    · rw [holds, hd]
      exact ht.hold hid
    · rintro a (_ | ⟨_, ha⟩)
      · rw [hname] at hm
        exact hm
      · exact h.remembered a ha
    · rw [hd] at hs'
      cases hs'
    · rw [hd] at hs'
      cases hs'
    · rw [candidates, hd] at hc'
      exact h.named c' (hwait c' (by simpa using hc'))
  | none =>
    have he : x.enter i c = { x with waiting := x.waiting.eraseIdx i, desk := some (.making c) } := by
      simp only [Office.enter, hs]
    rw [he]
    refine ⟨ht, h.remembered, fun s hs' => ?_, fun s hs' => ?_, fun c' hc' => ?_⟩
    · cases hs'
      exact fun id hid => absurd hid List.not_mem_nil
    · cases hs'
      exact h.session?_eq_none_iff.1 hs
    · rcases List.mem_append.1 hc' with hc' | hc'
      · exact h.named c' (hwait c' hc')
      · rw [List.mem_singleton.1 hc']
        exact hname

theorem make (h : x.Kept) {c : Candidate δ σ} (hd : x.desk = some (.making c)) : (x.step .make).Kept := by
  have ht := h.tallied
  rw [holds, hd] at ht
  have hc := h.named c (by simp [candidates, hd, Service.candidate])
  have hwait : ∀ c' ∈ x.waiting, c'.identity = x.registry.identityOf c'.found :=
    fun c' hc' => h.named c' (List.mem_append_left _ hc')
  rw [step, hd]
  dsimp only
  split
  · refine ⟨ht, h.remembered, fun s hs => ?_, fun s hs => ?_, fun c' hc' => hwait c' ?_⟩
    · cases hs
    · cases hs
    · simpa [candidates] using hc'
  · next device _ _ =>
    refine ⟨ht.start device, h.remembered, fun s hs => ?_, fun s hs => ?_, fun c' hc' => ?_⟩
    · cases hs
      rintro _ (_ | ⟨_, hid⟩) hm
      · obtain ⟨e, he, hid⟩ := List.mem_map.1 hm
        exact Nat.lt_irrefl _ (hid ▸ h.tallied.known e he)
      · cases hid
    · cases hs
      exact h.absent (.making c) hd
    · rcases List.mem_append.1 hc' with hc' | hc'
      · exact hwait c' hc'
      · rw [List.mem_singleton.1 hc']
        exact hc

theorem record (h : x.Kept) {c : Candidate δ σ} {id : Nat} (hd : x.desk = some (.made c id)) :
    (x.step .record).Kept := by
  have ht := h.tallied
  rw [holds, hd] at ht
  have hnew := h.inHand _ hd id (List.mem_singleton_self _)
  have hc := h.named c (by simp [candidates, hd, Service.candidate])
  rw [step, hd]
  dsimp only
  refine ⟨?_, ?_, fun s hs => ?_, fun s hs => ?_, fun c' hc' => h.named c' (List.mem_append_left _ ?_)⟩
  · refine ht.prune.remember List.mem_cons_self (fun hm => hnew ?_) c.identity
    exact (List.filter_sublist.map _).subset hm
  · rintro a (_ | ⟨_, ha⟩)
    · rw [Registry.mem_remember_iff, hc]
      exact .inl rfl
    · -- what is held is not forgotten, and is with another device
      rw [Registry.mem_remember_iff, Registry.mem_prune_iff ht]
      refine .inr ⟨⟨h.remembered a ha, ?_⟩, h.absent _ hd a ha⟩
      exact List.mem_cons_of_mem _ (List.mem_map_of_mem ha)
  · cases hs
  · cases hs
  · simpa [candidates] using hc'

theorem share (h : x.Kept) {i : Nat} {a : Holding} (ha : x.held[i]? = some a) :
    Kept { x with registry := x.registry.hold a.id, held := a :: x.held } := by
  have hm := List.mem_of_getElem? ha
  refine ⟨?_, ?_, h.inHand, fun s hs => ?_, h.named⟩
  · exact (h.tallied.hold (mem_holds hm)).congr List.perm_middle.symm
  · rintro b (_ | ⟨_, hb⟩)
    · exact h.remembered a hm
    · exact h.remembered b hb
  · rintro b (_ | ⟨_, hb⟩)
    · exact h.absent s hs a hm
    · exact h.absent s hs b hb

theorem drop (h : x.Kept) {i : Nat} {a : Holding} (ha : x.held[i]? = some a) :
    Kept { x with registry := x.registry.release a.id, held := x.held.eraseIdx i } := by
  obtain ⟨hi, rfl⟩ := List.getElem?_eq_some_iff.1 ha
  have hsub : ∀ b ∈ x.held.eraseIdx i, b ∈ x.held := fun b hb => (List.eraseIdx_sublist _ _).subset hb
  refine ⟨?_, fun b hb => h.remembered b (hsub b hb), h.inHand, fun s hs b hb => h.absent s hs b (hsub b hb), h.named⟩
  refine (h.tallied.congr ?_).release
  refine List.Perm.trans (List.Perm.append_left _ ?_) List.perm_middle
  exact ((List.getElem_cons_eraseIdx_perm hi).map _).symm

theorem step (h : x.Kept) (a : OfficeAction δ σ) : (x.step a).Kept := by
  cases a with
  | register f =>
    have ht := h.tallied
    exact ⟨⟨ht.ids, ht.held, ht.holders, ht.started, ht.identities, ht.numbers, ht.known⟩, h.remembered, h.inHand,
      h.absent, h.named⟩
  | ask hint kind which =>
    rw [Office.step]
    split
    · next c hc =>
      refine ⟨h.tallied, h.remembered, h.inHand, h.absent, fun c' hc' => ?_⟩
      rw [candidates, List.append_assoc, List.mem_append, List.mem_append, List.mem_singleton] at hc'
      rcases hc' with hc' | rfl | hc'
      · exact h.named c' (List.mem_append_left _ hc')
      · obtain ⟨p, -, rfl⟩ := Registry.choose_eq_ok_iff.1 hc
        rfl
      · exact h.named c' (List.mem_append_right _ hc')
    · exact h
  | enter i =>
    rw [Office.step]
    split
    · next hd hc => exact h.enter hd hc
    · exact h
  | make =>
    cases hd : x.desk with
    | none =>
      rw [Office.step, hd]
      exact h
    | some s => cases s with
      | making c => exact h.make hd
      | made c id =>
        rw [Office.step, hd]
        exact h
  | record =>
    cases hd : x.desk with
    | none =>
      rw [Office.step, hd]
      exact h
    | some s => cases s with
      | making c =>
        rw [Office.step, hd]
        exact h
      | made c id => exact h.record hd
  | share i =>
    rw [Office.step]
    split
    · next a ha => exact h.share ha
    · exact h
  | drop i =>
    rw [Office.step]
    split
    · next a ha => exact h.drop ha
    · exact h

/-- Any actions, in any order. -/
theorem run (h : x.Kept) (as : List (OfficeAction δ σ)) : (x.run as).Kept := by
  induction as generalizing x with
  | nil => exact h
  | cons a as ih => exact ih (h.step a)

theorem fresh (families : List (Family δ σ)) (complete : Address → Address) (digest : Bytes → Bytes) (outside : σ) :
    (fresh families complete digest outside).Kept where
  tallied := .fresh rfl rfl
  remembered a ha := absurd ha List.not_mem_nil
  inHand s hs := by cases hs
  absent s hs := by cases hs
  named c hc := absurd hc List.not_mem_nil

/-- The sessions that count are one for each device of which a session is held. -/
theorem live_eq (h : x.Kept) : x.registry.live = (x.held.map x.deviceOf).dedup.length := by
  rw [Registry.live, List.countP_eq_length_filter, ← List.length_map (f := Prod.fst)]
  refine List.Perm.length_eq ?_
  rw [List.perm_ext_iff_of_nodup (h.tallied.identities.sublist (List.filter_sublist.map _)) (List.nodup_dedup _)]
  intro k
  rw [List.mem_dedup, List.mem_map, List.mem_map]
  constructor
  · rintro ⟨e, he, rfl⟩
    obtain ⟨hm, hb⟩ := List.mem_filter.1 he
    obtain ⟨a, ha, -, hk⟩ := h.exists_held hm (h.tallied.isSome_byId?_iff.1 hb)
    exact ⟨a, ha, hk⟩
  · rintro ⟨a, ha, rfl⟩
    refine ⟨_, List.mem_filter.2 ⟨h.remembered a ha, ?_⟩, rfl⟩
    exact h.tallied.isSome_byId?_iff.2 (mem_holds ha)

end Kept

/-! ## A call that nobody interrupts -/

/-- The actions of a call for a session when nothing else happens. -/
def call (x : Office δ σ) (hint : Address) (kind : DeviceKind) (which : Nat) : List (OfficeAction δ σ) :=
  [.ask hint kind which, .enter x.waiting.length, .make, .record]

/-- The hold that `Registry.make` hands out. -/
def handedOut (x : Office δ σ) (hint : Address) (kind : DeviceKind) (which : Nat) : List Holding :=
  match x.registry.choose hint kind which, (x.registry.make hint kind which x.outside).1 with
  | .ok c, .ok s => [⟨s.id, c.found⟩]
  | _, _ => []

/-- A call that nobody interrupts is `Registry.make`. -/
theorem run_call (hd : x.desk = none) (hint : Address) (kind : DeviceKind) (which : Nat) :
    x.run (x.call hint kind which) =
      { x with
        registry := (x.registry.make hint kind which x.outside).2.1
        outside := (x.registry.make hint kind which x.outside).2.2
        held := x.handedOut hint kind which ++ x.held } := by
  obtain ⟨r, s, waiting, desk, held⟩ := x
  cases hd
  simp only [call, run, List.foldl_cons, List.foldl_nil, step, handedOut, Registry.make]
  cases hc : r.choose hint kind which with
  | error e => simp
  | ok c =>
    have hw : (waiting ++ [c]).eraseIdx waiting.length = waiting := by simp [List.eraseIdx_append_of_length_le]
    simp only [List.getElem?_concat_length, enter, Registry.acquire, hw]
    cases r.session? c.identity with
    | some old => simp
    | none =>
      dsimp only
      rcases c.family.make (r.arguments c) s with ⟨e | d, s'⟩
      · simp
      · simp

/-! ## What callers can count on -/

/-- The sessions of an office. -/
structure Orderly (x : Office δ σ) : Prop where
  /-- What is held is a session that goes on. -/
  goesOn : ∀ a ∈ x.held, (x.registry.byId? a.id).isSome
  /-- Sessions that are held are the same exactly if they are with the same device. -/
  one : ∀ a ∈ x.held, ∀ b ∈ x.held, x.deviceOf a = x.deviceOf b ↔ a.id = b.id
  /-- A device is made only while nobody holds a session with it. -/
  alone : ∀ c, x.desk = some (.making c) → ∀ a ∈ x.held, x.deviceOf a ≠ x.registry.identityOf c.found
  /-- Who comes for a device with which a session is held gets that session. Nothing is
  made. -/
  again : ∀ i c, x.desk = none → x.waiting[i]? = some c → ∀ a ∈ x.held, x.deviceOf a = x.registry.identityOf c.found →
    x.step (.enter i) = { x with
      waiting := x.waiting.eraseIdx i, registry := x.registry.hold a.id, held := ⟨a.id, c.found⟩ :: x.held }
  /-- For another device a session is made. -/
  first : ∀ i c, x.desk = none → x.waiting[i]? = some c →
    (∀ a ∈ x.held, x.deviceOf a ≠ x.registry.identityOf c.found) →
    x.step (.enter i) = { x with waiting := x.waiting.eraseIdx i, desk := some (.making c) }
  /-- The session of a device that was made is new to all who hold one, and is handed
  out. -/
  made : ∀ c id, x.desk = some (.made c id) → (∀ a ∈ x.held, a.id ≠ id) ∧
    (x.step .record).held = ⟨id, c.found⟩ :: x.held
  /-- A device that cannot be made leaves the registry as it was. -/
  failed : ∀ c e s, x.desk = some (.making c) → c.family.make (x.registry.arguments c) x.outside = (.error e, s) →
    x.step .make = { x with outside := s, desk := none }
  /-- The sessions in use are as many as the devices of which a session is held. -/
  counted : x.registry.live = (x.held.map x.deviceOf).dedup.length
  /-- A call in which nothing else happens is `Registry.make`. -/
  uninterrupted : x.desk = none → ∀ hint kind which, x.run (x.call hint kind which) = { x with
    registry := (x.registry.make hint kind which x.outside).2.1
    outside := (x.registry.make hint kind which x.outside).2.2
    held := x.handedOut hint kind which ++ x.held }

namespace Kept

/-- A session that was started and not handed out is not yet held by anybody else. -/
theorem ne_of_inHand (h : x.Kept) {s : Service δ σ} (hs : x.desk = some s) {id : Nat} (hid : id ∈ s.inHand) :
    ∀ a ∈ x.held, a.id ≠ id := by
  rintro a ha rfl
  exact h.inHand s hs a.id hid (List.mem_map_of_mem (f := Prod.snd) (h.remembered a ha))

theorem orderly (h : x.Kept) : x.Orderly where
  goesOn a ha := h.tallied.isSome_byId?_iff.2 (mem_holds ha)
  one a ha b hb := by
    obtain ⟨s, hs, hsa⟩ := h.session?_of_held ha
    obtain ⟨t, ht, htb⟩ := h.session?_of_held hb
    constructor
    · intro he
      rw [he, ht] at hs
      rw [← hsa, ← htb, Option.some.inj hs]
    · intro he
      have hm := List.inj_on_of_nodup_map h.tallied.numbers (h.remembered a ha) (h.remembered b hb) he
      exact (Prod.mk.inj hm).1
  alone c hd a ha := by
    have hc := h.named c (by simp [candidates, hd, Service.candidate])
    rw [← hc]
    exact h.absent _ hd a ha
  again i c hd hc a ha he := by
    obtain ⟨s, hs, hsa⟩ := h.session?_of_held ha
    rw [he, ← h.named c (List.mem_append_left _ (List.mem_of_getElem? hc))] at hs
    simp only [Office.step, hd, hc, Office.enter, hs, hsa]
  first i c hd hc hn := by
    rw [← h.named c (List.mem_append_left _ (List.mem_of_getElem? hc)), ← h.session?_eq_none_iff] at hn
    simp only [Office.step, hd, hc, Office.enter, hn]
  made c id hd := ⟨h.ne_of_inHand hd (List.mem_singleton_self _), by rw [Office.step, hd]⟩
  failed c e s hd he := by simp only [Office.step, hd, he]
  counted := h.live_eq
  uninterrupted hd := run_call hd

end Kept

/-- Whoever asks for sessions, shares them and lets them go, and in whatever order the
steps of their calls and the ends of sessions fall: a device has one session at a time. -/
theorem sessions_orderly (families : List (Family δ σ)) (complete : Address → Address) (digest : Bytes → Bytes)
    (outside : σ) (as : List (OfficeAction δ σ)) : ((fresh families complete digest outside).run as).Orderly :=
  ((Kept.fresh families complete digest outside).run as).orderly

/-- Two look for a device before either comes to the desk. The first makes it, the second
shares its session, also after the first let go of it; a third, who comes when both did, has
another made. -/
example :
    let device : Address := .ofPairs [("serial", "1")]
    let family : Family Nat Nat := { find := fun _ => .ok [device], make := fun _ n => (.ok n, n + 1), kind := .usrp }
    let ask : OfficeAction Nat Nat := .ask {} .any 0
    let x := (fresh [family] id id 0).run [ask, ask, ask, .enter 0, .enter 0, .make, .record, .enter 0, .drop 1]
    let y := x.run [.drop 0, .enter 0, .make, .record]
    (x.held, x.outside, x.registry.live) = ([⟨0, device⟩], 1, 1) ∧
      (y.held, y.outside, y.registry.live) = ([⟨1, device⟩], 2, 1) := by
  decide

end Office

end RadioStream
