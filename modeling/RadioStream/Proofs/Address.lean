import Mathlib.Data.List.Induction
import Mathlib.Data.Option.Basic
import RadioStream.Address.Basic
import RadioStream.Proofs.Lists
/-!
# The values of an address

What an address says of a key after a pair was put into it, and after it was completed
with another address: what it says itself stays, and the other is asked for the rest. An
address is known by what it says of the keys, and one made of pairs says of a key what the
last of the pairs says that has it.
-/

namespace RadioStream.Address

variable {a b : Address} {key k value : String}

theorem find?_insertPair (ps : List (String × String)) :
    ((insertPair key value ps).find? (·.1 == k)).map (·.2) =
      if k = key then some value else (ps.find? (·.1 == k)).map (·.2) := by
  induction ps with
  | nil => exact find?_name_cons (key, value) [] k
  | cons p ps ih =>
    rw [insertPair]
    split
    next => exact find?_name_cons (key, value) (p :: ps) k
    next hle =>
      split
      next hlt =>
        have hne : p.1 ≠ key := fun h => String.lt_irrefl key (by rwa [h] at hlt)
        rw [find?_name_cons, find?_name_cons, ih]
        by_cases hk : k = p.1
        · rw [if_pos hk, if_neg (hk ▸ hne), if_pos hk]
        · rw [if_neg hk, if_neg hk]
      next hge =>
        have hp : p.1 = key := String.le_antisymm hle hge
        rw [find?_name_cons, find?_name_cons, hp]
        by_cases hk : k = key
        · rw [if_pos hk, if_pos hk]
        · rw [if_neg hk, if_neg hk, if_neg hk]

@[simp] theorem get?_empty : empty.get? k = none := rfl

@[simp] theorem pairs_insert : (a.insert key value).pairs = insertPair key value a.pairs := rfl

@[simp] theorem get?_insert : (a.insert key value).get? k = if k = key then some value else a.get? k :=
  find?_insertPair a.pairs

theorem get?_insertIfNew :
    (a.insertIfNew key value).get? k = (a.get? k).or (if k = key then some value else none) := by
  unfold insertIfNew contains
  split
  next h =>
    by_cases hk : k = key
    · subst hk
      obtain ⟨v, hv⟩ := Option.isSome_iff_exists.1 h
      simp [hv]
    · simp [hk]
  next h =>
    rw [get?_insert]
    by_cases hk : k = key
    · subst hk
      simp [Option.not_isSome_iff_eq_none.1 h]
    · simp [hk]

/-- An address completed with another says what it said, and otherwise what the other says. -/
theorem get?_fillFrom (a b : Address) (k : String) : (a.fillFrom b).get? k = (a.get? k).or (b.get? k) := by
  have hfold : ∀ (ps : List (String × String)) (a : Address),
      (ps.foldl (fun a p => a.insertIfNew p.1 p.2) a).get? k =
        (a.get? k).or ((ps.find? (·.1 == k)).map (·.2)) := by
    intro ps
    induction ps with
    | nil => simp
    | cons p ps ih =>
      intro a
      rw [List.foldl_cons, ih, get?_insertIfNew, Option.or_assoc, find?_name_cons]
      by_cases hp : k = p.1
      · rw [if_pos hp, if_pos hp, Option.some_or]
      · rw [if_neg hp, if_neg hp, Option.none_or]
  exact hfold b.pairs a

/-- An address completed with several others, one after the other, says of a key what the
first of all says that has it. -/
theorem get?_foldl_fillFrom (as : List Address) (a : Address) (k : String) :
    (as.foldl fillFrom a).get? k = (a :: as).findSome? (·.get? k) := by
  induction as generalizing a with
  | nil => simp
  | cons b as ih =>
    rw [List.foldl_cons, ih, List.findSome?_cons, List.findSome?_cons, List.findSome?_cons, get?_fillFrom]
    cases a.get? k with
    | some v => rfl
    | none => rfl

/-! ## The pairs as values of keys -/

theorem get?_eq_some_iff : a.get? k = some value ↔ (k, value) ∈ a.pairs :=
  find?_name_eq_some_iff (nodup_names a.sorted)

/-- Two addresses that say the same of every key are the same. -/
theorem ext_get? (h : ∀ k, a.get? k = b.get? k) : a = b := by
  apply ext
  apply eq_of_mem_iff a.sorted b.sorted
  intro p
  exact (get?_eq_some_iff.symm.trans (by rw [h])).trans get?_eq_some_iff

theorem ofPairs_concat (ps : List (String × String)) (p : String × String) :
    ofPairs (ps ++ [p]) = (ofPairs ps).insert p.1 p.2 := by
  rw [ofPairs, List.foldl_append, List.foldl_cons, List.foldl_nil, ofPairs]

/-- An address made of pairs says of a key what the last pair with that key says. -/
theorem get?_ofPairs (ps : List (String × String)) (k : String) :
    (ofPairs ps).get? k = (ps.reverse.find? (·.1 == k)).map (·.2) := by
  induction ps using List.reverseRecOn with
  | nil => rfl
  | append_singleton ps p ih =>
    rw [ofPairs_concat, get?_insert, List.reverse_append, List.reverse_singleton, List.singleton_append,
      find?_name_cons, ih]

/-- Of two runs of pairs the second is asked first. -/
theorem get?_ofPairs_append (ps qs : List (String × String)) (k : String) :
    (ofPairs (ps ++ qs)).get? k = ((ofPairs qs).get? k).or ((ofPairs ps).get? k) := by
  simp only [get?_ofPairs, List.reverse_append, List.find?_append, Option.map_or]

theorem mem_of_mem_ofPairs {ps : List (String × String)} {p : String × String} (h : p ∈ (ofPairs ps).pairs) :
    p ∈ ps := by
  induction ps using List.reverseRecOn with
  | nil => cases h
  | append_singleton ps q ih =>
    rw [ofPairs_concat, pairs_insert] at h
    rcases mem_insertPair h with rfl | h
    · exact List.mem_append_right ps List.mem_cons_self
    · exact List.mem_append_left [q] (ih h)

theorem insertPair_of_forall_lt {ps : List (String × String)} (h : ∀ p ∈ ps, p.1 < key) :
    insertPair key value ps = ps ++ [(key, value)] := by
  induction ps with
  | nil => rfl
  | cons p ps ih =>
    have hp : p.1 < key := h p List.mem_cons_self
    have hnot : ¬key < p.1 := fun hlt => String.lt_irrefl key (String.lt_trans hlt hp)
    rw [insertPair, if_neg hnot, if_pos hp, ih fun q hq => h q (List.mem_cons_of_mem p hq), List.cons_append]

/-- Pairs that are in key order already are those of the address made of them. -/
theorem pairs_ofPairs {ps : List (String × String)} (h : ps.Pairwise (fun a b => a.1 < b.1)) :
    (ofPairs ps).pairs = ps := by
  induction ps using List.reverseRecOn with
  | nil => rfl
  | append_singleton ps p ih =>
    obtain ⟨hps, -, hlt⟩ := List.pairwise_append.1 h
    rw [ofPairs_concat, pairs_insert, ih hps]
    exact insertPair_of_forall_lt fun q hq => hlt q hq p List.mem_cons_self

end RadioStream.Address
