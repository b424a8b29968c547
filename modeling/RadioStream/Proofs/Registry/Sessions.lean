import Mathlib.Data.List.Nodup
import RadioStream.Proofs.Lists
import RadioStream.Registry
/-!
# Sessions and who holds them

`Registry.Tallied` says that the sessions of a registry are those that somebody holds,
each as often as it is held, and that what is remembered is one session of each device and
one device of each session. The holds are a list of session numbers in any order. There is
one lemma for each operation.
-/

namespace RadioStream.Registry

variable {δ σ : Type} {r : Registry δ σ} {holds : List Nat} {id : Nat} {k : Bytes}

/-- The sessions are those that are held, and what is remembered is unambiguous and of
sessions that were started. -/
structure Tallied (r : Registry δ σ) (holds : List Nat) : Prop where
  ids : (r.sessions.map (·.id)).Nodup
  held : ∀ id, id ∈ r.sessions.map (·.id) ↔ id ∈ holds
  holders : ∀ x ∈ r.sessions, x.holders = holds.count x.id
  started : ∀ id ∈ holds, id < r.nextId
  identities : (r.remembered.map (·.1)).Nodup
  numbers : (r.remembered.map (·.2)).Nodup
  known : ∀ e ∈ r.remembered, e.2 < r.nextId

/-! ## Looking sessions up -/

theorem isSome_byId?_iff : (r.byId? id).isSome ↔ id ∈ r.sessions.map (·.id) := by
  simp [byId?, List.find?_isSome]

theorem id_of_byId? {x : DeviceSession δ} (h : r.byId? id = some x) : x.id = id := by
  simpa using List.find?_some h

namespace Tallied

theorem congr {holds' : List Nat} (h : r.Tallied holds) (hp : holds.Perm holds') : r.Tallied holds' where
  ids := h.ids
  held id := (h.held id).trans hp.mem_iff
  holders x hx := (h.holders x hx).trans (hp.count_eq _)
  started id hid := h.started id (hp.mem_iff.2 hid)
  identities := h.identities
  numbers := h.numbers
  known := h.known

theorem isSome_byId?_iff (h : r.Tallied holds) : (r.byId? id).isSome ↔ id ∈ holds :=
  Registry.isSome_byId?_iff.trans (h.held id)

/-- There is a session with a device if the one that is remembered is held. -/
theorem session?_eq_some_iff (h : r.Tallied holds) :
    (∃ x, r.session? k = some x ∧ x.id = id) ↔ (k, id) ∈ r.remembered ∧ id ∈ holds := by
  rw [← lookup_eq_some_iff h.identities, ← h.isSome_byId?_iff, Option.isSome_iff_exists]
  constructor
  · rintro ⟨x, hx, rfl⟩
    obtain ⟨id, hl, hb⟩ := Option.bind_eq_some_iff.1 hx
    rw [id_of_byId? hb]
    exact ⟨hl, x, hb⟩
  · rintro ⟨hl, x, hb⟩
    exact ⟨x, Option.bind_eq_some_iff.2 ⟨id, hl, hb⟩, id_of_byId? hb⟩

theorem session?_eq_none_iff (h : r.Tallied holds) :
    r.session? k = none ↔ ∀ id ∈ holds, (k, id) ∉ r.remembered := by
  constructor
  · intro hn id hid hm
    obtain ⟨x, hx, -⟩ := h.session?_eq_some_iff.2 ⟨hm, hid⟩
    rw [hn] at hx
    cases hx
  · intro hall
    cases hx : r.session? k with
    | none => rfl
    | some x =>
      obtain ⟨hm, hid⟩ := h.session?_eq_some_iff.1 ⟨x, hx, rfl⟩
      exact absurd hm (hall _ hid)

/-! ## Operations -/

/-- A registry without sessions. -/
theorem fresh (hs : r.sessions = []) (hr : r.remembered = []) : r.Tallied [] where
  ids := by simp [hs]
  held id := by simp [hs]
  holders x hx := by simp [hs] at hx
  started id hid := by simp at hid
  identities := by simp [hr]
  numbers := by simp [hr]
  known e he := by simp [hr] at he

/-- Changing how often sessions are held does not change which there are. -/
theorem map_ids {f : DeviceSession δ → DeviceSession δ} (hf : ∀ x, (f x).id = x.id) (xs : List (DeviceSession δ)) :
    (xs.map f).map (·.id) = xs.map (·.id) := by
  rw [List.map_map]
  exact List.map_congr_left fun x _ => hf x

theorem hold (h : r.Tallied holds) (hid : id ∈ holds) : (r.hold id).Tallied (id :: holds) where
  ids := by
    rw [Registry.hold, map_ids fun x => by split <;> rfl]
    exact h.ids
  held id' := by
    rw [Registry.hold, map_ids fun x => by split <;> rfl, h.held, List.mem_cons]
    exact ⟨.inr, fun h => h.elim (fun he => he ▸ hid) fun h => h⟩
  holders x hx := by
    obtain ⟨y, hy, rfl⟩ := List.mem_map.1 hx
    have hc := h.holders y hy
    split
    · next he => rw [he] at hc; simp [he, hc]
    · next he => rw [List.count_cons_of_ne (Ne.symm he)]; exact hc
  started id' h' := by
    rcases List.mem_cons.1 h' with rfl | h'
    · exact h.started _ hid
    · exact h.started _ h'
  identities := h.identities
  numbers := h.numbers
  known := h.known

/-- A session that was held more than once goes on, one that was not ends. -/
theorem release (h : r.Tallied (id :: holds)) : (r.release id).Tallied holds := by
  have hcount : ∀ x ∈ r.sessions, (if x.id = id then { x with holders := x.holders - 1 } else x).holders =
      holds.count x.id := by
    intro x hx
    have hc := h.holders x hx
    split
    · next he => rw [he] at hc; simp [hc, he]
    · next he => rw [hc, List.count_cons_of_ne (Ne.symm he)]
  have hids : ∀ x : DeviceSession δ, (if x.id = id then { x with holders := x.holders - 1 } else x).id = x.id :=
    fun x => by split <;> rfl
  refine ⟨?_, fun id' => ?_, fun x hx => ?_, fun id' h' => h.started _ (List.mem_cons_of_mem _ h'), h.identities,
    h.numbers, h.known⟩
  · have hn := h.ids
    rw [← map_ids hids] at hn
    exact hn.sublist (List.filter_sublist.map _)
  · rw [List.mem_map, ← List.count_pos_iff]
    constructor
    · rintro ⟨x, hx, rfl⟩
      obtain ⟨hx, hpos⟩ := List.mem_filter.1 hx
      obtain ⟨y, hy, rfl⟩ := List.mem_map.1 hx
      rw [decide_eq_true_eq, hcount y hy] at hpos
      rwa [hids]
    · intro hpos
      obtain ⟨y, hy, rfl⟩ := List.mem_map.1 ((h.held id').2 (List.mem_cons_of_mem _ (List.count_pos_iff.1 hpos)))
      refine ⟨_, List.mem_filter.2 ⟨List.mem_map_of_mem hy, ?_⟩, hids y⟩
      rw [decide_eq_true_eq, hcount y hy]
      exact hpos
  · obtain ⟨y, hy, rfl⟩ := List.mem_map.1 (List.mem_filter.1 hx).1
    rw [hcount y hy, hids]

theorem start (h : r.Tallied holds) (d : δ) : (r.start d).2.Tallied (r.nextId :: holds) := by
  have hnew : r.nextId ∉ holds := fun hm => Nat.lt_irrefl _ (h.started _ hm)
  refine ⟨?_, fun id => ?_, fun x hx => ?_, fun id hid => ?_, h.identities, h.numbers, fun e he =>
    Nat.lt_succ_of_lt (h.known e he)⟩
  · rw [Registry.start, List.map_append, List.nodup_append]
    refine ⟨h.ids, List.nodup_singleton _, fun id hid _ hn => ?_⟩
    rw [List.mem_singleton.1 hn]
    rintro rfl
    exact hnew ((h.held _).1 hid)
  · rw [Registry.start, List.map_append, List.mem_append, h.held, List.mem_cons, or_comm]
    simp
  · rcases List.mem_append.1 hx with hx | hx
    · have hne : r.nextId ≠ x.id := fun he => hnew (he ▸ (h.held _).1 (List.mem_map_of_mem hx))
      rw [h.holders x hx, List.count_cons_of_ne hne]
    · rw [List.mem_singleton.1 hx]
      simp [List.count_eq_zero_of_not_mem hnew]
  · rcases List.mem_cons.1 hid with rfl | hid
    · exact Nat.lt_succ_self _
    · exact Nat.lt_succ_of_lt (h.started _ hid)

/-- Forgetting entries keeps the rest. -/
theorem forget (h : r.Tallied holds) (p : Bytes × Nat → Bool) :
    ({ r with remembered := r.remembered.filter p } : Registry δ σ).Tallied holds where
  ids := h.ids
  held := h.held
  holders := h.holders
  started := h.started
  identities := h.identities.sublist (List.filter_sublist.map _)
  numbers := h.numbers.sublist (List.filter_sublist.map _)
  known e he := h.known e (List.mem_filter.1 he).1

theorem prune (h : r.Tallied holds) : r.prune.Tallied holds := h.forget _

theorem remember (h : r.Tallied holds) (hid : id ∈ holds) (hnew : id ∉ r.remembered.map (·.2)) (k : Bytes) :
    (r.remember k id).Tallied holds := by
  have hf := h.forget fun e => e.1 != k
  refine ⟨h.ids, h.held, h.holders, h.started, ?_, ?_, fun e he => ?_⟩
  · rw [Registry.remember, List.map_cons, List.nodup_cons]
    refine ⟨fun hm => ?_, hf.identities⟩
    obtain ⟨e, he, hk⟩ := List.mem_map.1 hm
    exact bne_iff_ne.1 (List.mem_filter.1 he).2 hk
  · rw [Registry.remember, List.map_cons, List.nodup_cons]
    exact ⟨fun hm => hnew ((List.filter_sublist.map _).subset hm), hf.numbers⟩
  · rcases List.mem_cons.1 he with rfl | he
    · exact h.started _ hid
    · exact hf.known e he

end Tallied

/-! ## What is remembered -/

theorem mem_prune_iff {e : Bytes × Nat} (h : r.Tallied holds) :
    e ∈ r.prune.remembered ↔ e ∈ r.remembered ∧ e.2 ∈ holds := by
  rw [prune, List.mem_filter, h.isSome_byId?_iff]

theorem mem_remember_iff {e : Bytes × Nat} : e ∈ (r.remember k id).remembered ↔
    e = (k, id) ∨ e ∈ r.remembered ∧ e.1 ≠ k := by
  simp [remember]

end RadioStream.Registry
