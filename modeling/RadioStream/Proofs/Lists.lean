import Mathlib.Data.List.Basic
import Mathlib.Data.List.Forall2
import Mathlib.Data.List.Nodup
import Mathlib.Data.List.Sort
import Mathlib.Order.Lattice.Nat
import RadioStream.Error
/-!
# Lists

What is needed of lists and says nothing of what stands in them. In a list of pairs with
different names, what is found under a name is what stands there, and the order of the
pairs does not matter. Sorting by merging and sorting by inserting do the same. A row of
attempts succeeds if each of them does. Lists that are related element by element stay so
when one pair of elements changes. What is written one after the other can be told apart
again if no value is written as the beginning of another.
-/

namespace RadioStream

/-! ## Names -/

section Names

variable {α κ : Type} [BEq κ] [LawfulBEq κ] {k : κ} {x : α} {es fs : List (κ × α)}

theorem lookup_eq_some_iff (hn : (es.map (·.1)).Nodup) : es.lookup k = some x ↔ (k, x) ∈ es := by
  constructor
  · intro h
    obtain ⟨_, _, rfl, -⟩ := List.lookup_eq_some_iff.1 h
    simp
  · intro h
    obtain ⟨y, hy⟩ := Option.isSome_iff_exists.1 (List.lookup_isSome_iff.2 ⟨_, h, beq_self_eq_true k⟩)
    obtain ⟨_, _, he, -⟩ := List.lookup_eq_some_iff.1 hy
    have hm : (k, y) ∈ es := by
      rw [he]
      simp
    rw [hy, show y = x from (Prod.mk.inj (List.inj_on_of_nodup_map hn hm h rfl)).2]

theorem lookup_eq_of_perm (hp : es.Perm fs) (hn : (es.map (·.1)).Nodup) (k : κ) : es.lookup k = fs.lookup k :=
  Option.ext fun x => by
    rw [lookup_eq_some_iff hn, lookup_eq_some_iff ((hp.map _).nodup_iff.1 hn), hp.mem_iff]

theorem map_find?_eq_lookup (es : List (κ × α)) (k : κ) : (es.find? (·.1 == k)).map (·.2) = es.lookup k := by
  induction es with
  | nil => rfl
  | cons e es ih =>
    rw [List.find?_cons, List.lookup_cons, ← ih, BEq.comm]
    cases k == e.1 with
    | true => rfl
    | false => rfl

theorem find?_name_eq_some_iff (hn : (es.map (·.1)).Nodup) :
    (es.find? (·.1 == k)).map (·.2) = some x ↔ (k, x) ∈ es := by
  rw [map_find?_eq_lookup, lookup_eq_some_iff hn]

theorem find?_name_cons [DecidableEq κ] (e : κ × α) (es : List (κ × α)) (k : κ) :
    ((e :: es).find? (·.1 == k)).map (·.2) = if k = e.1 then some e.2 else (es.find? (·.1 == k)).map (·.2) := by
  by_cases h : k = e.1
  · rw [if_pos h, List.find?_cons, beq_iff_eq.2 h.symm, Option.map_some]
  · rw [if_neg h, List.find?_cons, beq_eq_false_iff_ne.2 (Ne.symm h)]

end Names

/-! ## Order -/

section Order

variable {α : Type} {le : α → α → Bool} {a : α} {before after : List α}

/-- The place of something in a list in order. -/
theorem orderedInsert_append (hbefore : ∀ b ∈ before, ¬ le a b) (hafter : ∀ b ∈ after, le a b) :
    (before ++ after).orderedInsert (le · ·) a = before ++ a :: after := by
  induction before with
  | nil =>
    cases after with
    | nil => rfl
    | cons b after => exact List.orderedInsert_cons_of_le _ after (hafter b List.mem_cons_self)
  | cons b before ih =>
    obtain ⟨hb, hbefore⟩ := List.forall_mem_cons.1 hbefore
    rw [List.cons_append, List.orderedInsert_of_not_le (le · ·) _ hb, ih hbefore, List.cons_append]

/-- The two sorts agree on things that are equal in order as well, of which both keep the
order they have. -/
theorem mergeSort_eq_insertionSort (htrans : ∀ a b c, le a b → le b c → le a c)
    (htotal : ∀ a b, le a b || le b a) (xs : List α) : xs.mergeSort le = xs.insertionSort (le · ·) := by
  induction xs with
  | nil => exact List.mergeSort_nil
  | cons x xs ih =>
    obtain ⟨before, after, hcons, hxs, hbefore⟩ := List.mergeSort_cons htrans htotal x xs
    have hsorted : (before ++ x :: after).Pairwise (le · ·) := hcons ▸ List.pairwise_mergeSort htrans htotal (x :: xs)
    have hafter := (List.pairwise_cons.1 (List.pairwise_append.1 hsorted).2.1).1
    rw [List.insertionSort_cons, ← ih, hxs, hcons, orderedInsert_append (by simpa using hbefore) hafter]

/-! ### Pairs in the order of their names -/

variable {xs ys : List (String × α)}

theorem not_lt_trans (a b c : String × α) :
    decide (¬ b.1 < a.1) = true → decide (¬ c.1 < b.1) = true → decide (¬ c.1 < a.1) = true := by
  intro hab hbc
  exact decide_eq_true (String.le_trans (of_decide_eq_true hab) (of_decide_eq_true hbc))

theorem not_lt_total (a b : String × α) : (decide (¬ b.1 < a.1) || decide (¬ a.1 < b.1)) = true := by
  rw [Bool.or_eq_true]
  exact (String.le_total a.1 b.1).imp decide_eq_true decide_eq_true

theorem nodup_names (h : xs.Pairwise fun a b => a.1 < b.1) : (xs.map (·.1)).Nodup :=
  List.pairwise_map.2 (h.imp String.ne_of_lt)

/-- Two lists in strict order are equal if they have the same pairs. -/
theorem eq_of_mem_iff (hxs : xs.Pairwise fun a b => a.1 < b.1) (hys : ys.Pairwise fun a b => a.1 < b.1)
    (h : ∀ p, p ∈ xs ↔ p ∈ ys) : xs = ys := by
  have hirrefl : Std.Irrefl fun p q : String × α => p.1 < q.1 := ⟨fun p => String.lt_irrefl p.1⟩
  have hantisymm : Std.Antisymm fun p q : String × α => p.1 < q.1 :=
    ⟨fun p q hpq hqp => absurd (String.lt_trans hpq hqp) (String.lt_irrefl p.1)⟩
  exact hxs.eq_of_mem_iff hys h

end Order

/-! ## Attempts -/

/-- Whether an attempt gives a certain result. -/
instance decidableEqOk {ε α : Type} [DecidableEq α] (x : Except ε α) (y : α) : Decidable (x = .ok y) :=
  match x with
  | .ok z => decidable_of_iff (z = y) (Except.ok.injEq z y).symm.to_iff
  | .error _ => isFalse nofun

theorem bind_eq_ok {α β : Type} {x : Except Error α} {f : α → Except Error β} {y : β} (h : x >>= f = .ok y) :
    ∃ a, x = .ok a ∧ f a = .ok y := by
  cases x with
  | error e => cases h
  | ok a => exact ⟨a, rfl, h⟩

theorem forall₂_of_mapM {α β : Type} {f : α → Except Error β} {xs : List α} {ys : List β} (h : xs.mapM f = .ok ys) :
    List.Forall₂ (fun x y => f x = .ok y) xs ys := by
  induction xs generalizing ys with
  | nil =>
    cases h
    exact .nil
  | cons x xs ih =>
    rw [List.mapM_cons] at h
    obtain ⟨y, hy, h⟩ := bind_eq_ok h
    obtain ⟨more, hmore, h⟩ := bind_eq_ok h
    cases h
    exact .cons hy (ih hmore)

/-- What a row of attempts gives are their results. -/
theorem mem_of_mapM {α β : Type} {f : α → Option β} {xs : List α} {ys : List β} (h : xs.mapM f = some ys) :
    (∀ x ∈ xs, ∃ y ∈ ys, f x = some y) ∧ ∀ y ∈ ys, ∃ x ∈ xs, f x = some y := by
  induction xs generalizing ys with
  | nil =>
    cases h
    simp
  | cons x xs ih =>
    rw [List.mapM_cons] at h
    obtain ⟨y, hy, h⟩ := Option.bind_eq_some_iff.1 h
    obtain ⟨more, hmore, h⟩ := Option.bind_eq_some_iff.1 h
    cases h
    obtain ⟨hto, hfrom⟩ := ih hmore
    rw [List.forall_mem_cons, List.forall_mem_cons]
    refine ⟨⟨⟨y, by simp, hy⟩, fun z hz => ?_⟩, ⟨x, by simp, hy⟩, fun z hz => ?_⟩
    · obtain ⟨w, hw, he⟩ := hto z hz
      exact ⟨w, by simp [hw], he⟩
    · obtain ⟨w, hw, he⟩ := hfrom z hz
      exact ⟨w, by simp [hw], he⟩

theorem mapM_eq_some_map {α β : Type} {f : α → Option β} {g : α → β} {xs : List α} (h : ∀ x ∈ xs, f x = some (g x)) :
    xs.mapM f = some (xs.map g) := by
  induction xs with
  | nil => rfl
  | cons x xs ih =>
    obtain ⟨hx, hxs⟩ := List.forall_mem_cons.1 h
    rw [List.mapM_cons, hx, ih hxs]
    rfl

/-! ## Side by side -/

section SideBySide

variable {α β : Type} {R : α → β → Prop} {xs : List α} {ys : List β}

theorem forall₂_getElem? (h : List.Forall₂ R xs ys) (i : Nat) : Option.Rel R xs[i]? ys[i]? := by
  induction h generalizing i with
  | nil => exact .none
  | cons hx _ ih =>
    cases i with
    | zero => exact .some hx
    | succ i => exact ih i

theorem forall₂_exists_mem (h : List.Forall₂ R xs ys) {y : β} (hy : y ∈ ys) : ∃ x ∈ xs, R x y := by
  induction h with
  | nil => cases hy
  | cons hx _ ih =>
    rcases List.mem_cons.1 hy with rfl | hy
    · exact ⟨_, List.mem_cons_self, hx⟩
    · obtain ⟨x, hx, hxy⟩ := ih hy
      exact ⟨x, List.mem_cons_of_mem _ hx, hxy⟩

theorem forall₂_set (h : List.Forall₂ R xs ys) (i : Nat) {x : α} {y : β} (hxy : R x y) :
    List.Forall₂ R (xs.set i x) (ys.set i y) := by
  induction h generalizing i with
  | nil => exact .nil
  | cons hx hr ih =>
    cases i with
    | zero => exact .cons hxy hr
    | succ i => exact .cons hx (ih i)

theorem forall₂_modify (h : List.Forall₂ R xs ys) (i : Nat) {f : α → α} {g : β → β}
    (hfg : ∀ x y, R x y → R (f x) (g y)) : List.Forall₂ R (xs.modify i f) (ys.modify i g) := by
  induction h generalizing i with
  | nil => simp only [List.modify_nil]; exact .nil
  | cons hx hr ih =>
    cases i with
    | zero => exact .cons (hfg _ _ hx) hr
    | succ i => exact .cons hx (ih i)

theorem forall₂_imp_mem (h : List.Forall₂ R xs ys) {Q : α → β → Prop} (hQ : ∀ x ∈ xs, ∀ y ∈ ys, R x y → Q x y) :
    List.Forall₂ Q xs ys := by
  induction h with
  | nil => exact .nil
  | cons hx _ ih =>
    refine .cons (hQ _ List.mem_cons_self _ List.mem_cons_self hx) (ih fun x hx y hy => ?_)
    exact hQ x (List.mem_cons_of_mem _ hx) y (List.mem_cons_of_mem _ hy)

theorem forall_mem_zipWith {γ : Type} {f : α → β → γ} {P : γ → Prop} (h : ∀ x ∈ xs, ∀ y ∈ ys, P (f x y)) :
    ∀ z ∈ List.zipWith f xs ys, P z := by
  intro z hz
  rw [← List.map_uncurry_zip_eq_zipWith, List.mem_map] at hz
  obtain ⟨⟨x, y⟩, hxy, rfl⟩ := hz
  obtain ⟨hx, hy⟩ := List.of_mem_zip hxy
  exact h x hx y hy

/-- Nothing is added where each element of the other list is empty. -/
theorem zipWith_append_replicate_nil (xs : List (List α)) :
    List.zipWith (· ++ ·) xs (List.replicate xs.length []) = xs := by
  induction xs with
  | nil => rfl
  | cons x xs ih => rw [List.length_cons, List.replicate_succ, List.zipWith_cons_cons, ih, List.append_nil]

theorem map_eq_of_forall₂ {γ : Type} {f : α → γ} {g : β → γ} (h : List.Forall₂ (fun x y => g y = f x) xs ys) :
    ys.map g = xs.map f := by
  induction h with
  | nil => rfl
  | cons hx _ ih => rw [List.map_cons, List.map_cons, hx, ih]

theorem forall₂_comp {γ : Type} {Q : β → γ → Prop} {P : α → γ → Prop} {zs : List γ} (h : List.Forall₂ R xs ys)
    (h' : List.Forall₂ Q ys zs) (hP : ∀ {x y z}, R x y → Q y z → P x z) : List.Forall₂ P xs zs := by
  induction h generalizing zs with
  | nil =>
    cases h'
    exact .nil
  | cons hx _ ih =>
    cases h' with
    | cons hy hr => exact .cons (hP hx hy) (ih hr)

/-- One element of a list that is put together with another stands apart. -/
theorem zipWith_middle {γ : Type} (f : α → β → γ) {xs : List α} {before after : List β} {y : β}
    (hl : (before ++ y :: after).length = xs.length) :
    ∃ x first rest, first.length = before.length ∧
      ∀ y', List.zipWith f xs (before ++ y' :: after) = first ++ f x y' :: rest := by
  induction before generalizing xs with
  | nil =>
    obtain ⟨x, xs, rfl⟩ := List.exists_cons_of_length_eq_add_one hl.symm
    exact ⟨x, [], List.zipWith f xs after, rfl, fun _ => rfl⟩
  | cons y₀ before ih =>
    obtain ⟨x₀, xs, rfl⟩ := List.exists_cons_of_length_eq_add_one hl.symm
    obtain ⟨x, first, rest, hf, he⟩ := ih (Nat.succ.inj hl)
    refine ⟨x, f x₀ y₀ :: first, rest, congrArg (· + 1) hf, fun y' => ?_⟩
    rw [List.cons_append, List.zipWith_cons_cons, he, List.cons_append]

end SideBySide

/-! ## One element among others -/

section Among

variable {α β : Type} {before after : List α} {x y : α}

theorem modify_before (before after : List α) (x : α) (f : α → α) :
    (before ++ x :: after).modify before.length f = before ++ f x :: after := by
  induction before with
  | nil => rfl
  | cons y before ih => rw [List.length_cons, List.cons_append, List.modify_succ_cons, ih, List.cons_append]

theorem eq_of_append_cons_eq_singleton (h : before ++ x :: after = [y]) : before = [] ∧ after = [] ∧ x = y := by
  rcases List.append_eq_singleton_iff.1 h with ⟨hb, ha⟩ | ⟨-, ha⟩
  · obtain ⟨rfl, rfl⟩ := List.cons.inj ha
    exact ⟨hb, rfl, rfl⟩
  · cases ha

/-- How a list with another element at its end falls apart at an element. -/
theorem concat_eq_append_cons_iff {xs : List α} :
    xs ++ [x] = before ++ y :: after ↔
      (after = [] ∧ before = xs ∧ y = x) ∨ ∃ front, after = front ++ [x] ∧ xs = before ++ y :: front := by
  constructor
  · intro h
    rcases List.eq_nil_or_concat after with rfl | ⟨front, z, rfl⟩
    · obtain ⟨rfl, he⟩ := List.append_inj' h rfl
      cases he
      exact .inl ⟨rfl, rfl, rfl⟩
    · rw [List.concat_eq_append, ← List.cons_append, ← List.append_assoc] at h
      obtain ⟨rfl, he⟩ := List.append_inj' h rfl
      cases he
      exact .inr ⟨front, List.concat_eq_append, rfl⟩
  · rintro (⟨rfl, rfl, rfl⟩ | ⟨front, rfl, rfl⟩)
    · rfl
    · rw [List.append_assoc, List.cons_append]

/-- An element of joined lists is in one of them, after all elements of those before. -/
theorem exists_of_flatMap_eq {g : α → List β} {xs : List α} {l₁ l₂ : List β} {y : β}
    (h : xs.flatMap g = l₁ ++ y :: l₂) :
    ∃ before x after pre post, xs = before ++ x :: after ∧ g x = pre ++ y :: post ∧ l₁ = before.flatMap g ++ pre := by
  induction xs generalizing l₁ with
  | nil => simp at h
  | cons x xs ih =>
    rw [List.flatMap_cons] at h
    rcases List.append_eq_append_iff.1 h with ⟨l, rfl, hl⟩ | ⟨l, hx, hl⟩
    · obtain ⟨before, z, after, pre, post, rfl, hz, rfl⟩ := ih hl
      exact ⟨x :: before, z, after, pre, post, rfl, hz, by simp⟩
    · cases l with
      | nil =>
        rw [List.nil_append] at hl
        obtain ⟨before, z, after, pre, post, rfl, hz, hnil⟩ := ih (hl.symm.trans (List.nil_append _).symm)
        obtain ⟨hb, rfl⟩ := List.append_eq_nil_iff.1 hnil.symm
        refine ⟨x :: before, z, after, [], post, rfl, hz, ?_⟩
        rw [List.flatMap_cons, hb, hx, List.append_nil, List.append_nil, List.append_nil]
      | cons z l =>
        cases hl
        exact ⟨[], x, xs, l₁, l, rfl, hx, rfl⟩

/-- What makes up the lists of a flattened one can be told apart in what is mapped to it. -/
theorem exists_groups {f : α → β} {xs : List α} {gs : List (List β)} (h : xs.map f = gs.flatten) :
    ∃ groups : List (List α), xs = groups.flatten ∧ groups.map (List.map f) = gs := by
  induction gs generalizing xs with
  | nil => exact ⟨[], List.map_eq_nil_iff.1 h, rfl⟩
  | cons g gs ih =>
    rw [List.flatten_cons, List.map_eq_append_iff] at h
    obtain ⟨front, back, rfl, rfl, hback⟩ := h
    obtain ⟨groups, rfl, rfl⟩ := ih hback
    exact ⟨front :: groups, rfl, rfl⟩

end Among

/-! ## Tests -/

section Tests

variable {α κ : Type}

/-- A test that the last of some things meets, and no other, is met once. -/
theorem countP_eq_one_of_last {test : α → Bool} {xs : List α} (hlen : 0 < xs.length)
    (h : ∀ k x, xs[k]? = some x → test x = (k + 1 == xs.length)) : xs.countP test = 1 := by
  rcases List.eq_nil_or_concat' xs with rfl | ⟨front, x, rfl⟩
  · cases hlen
  · have hlast : test x = true := by
      rw [h front.length x List.getElem?_concat_length]
      simp
    have hfront : front.countP test = 0 := by
      rw [List.countP_eq_zero]
      intro y hy
      obtain ⟨k, hk⟩ := List.mem_iff_getElem?.1 hy
      have hlt := (List.getElem?_eq_some_iff.1 hk).1
      rw [h k y (by rw [List.getElem?_append_left hlt, hk]), beq_iff_eq, List.length_append, List.length_singleton]
      omega
    rw [List.countP_append, hfront, List.countP_singleton, hlast]
    rfl

/-- Among what comes after some elements, what is new is new after them and the first. -/
theorem filter_filter_ne [BEq κ] [LawfulBEq κ] {key : α → κ} (before xs : List α) (x : α) :
    (xs.filter fun y => !(key y == key x)).filter (fun z => before.all fun y => !(key y == key z)) =
      xs.filter fun z => (before ++ [x]).all fun y => !(key y == key z) := by
  rw [List.filter_filter]
  refine List.filter_congr fun z _ => ?_
  rw [List.all_append, List.all_cons, List.all_nil, Bool.and_true, BEq.comm]

theorem find?_short {n : Nat} {xss : List (List α)} :
    xss.find? (·.length < n) = none ↔ ∀ xs ∈ xss, n ≤ xs.length := by
  simp [List.find?_eq_none]

/-- Lists as long as others have as much room. -/
theorem room_of_lengths {n : Nat} {xss yss : List (List α)} (hl : yss.map List.length = xss.map List.length)
    (h : ∀ xs ∈ xss, n ≤ xs.length) : ∀ ys ∈ yss, n ≤ ys.length := by
  intro ys hys
  have hm : ys.length ∈ xss.map List.length := hl ▸ List.mem_map_of_mem hys
  obtain ⟨xs, hxs, he⟩ := List.mem_map.1 hm
  rw [← he]
  exact h xs hxs

theorem le_foldl_max (m : Nat) (ns : List Nat) :
    m ≤ ns.foldl max m ∧ (∀ n ∈ ns, n ≤ ns.foldl max m) ∧ (ns.foldl max m = m ∨ ns.foldl max m ∈ ns) := by
  induction ns generalizing m with
  | nil => simp
  | cons n ns ih =>
    obtain ⟨hle, hall, hmem⟩ := ih (max m n)
    rw [List.foldl_cons, List.forall_mem_cons]
    refine ⟨le_trans (Nat.le_max_left m n) hle, ⟨le_trans (Nat.le_max_right m n) hle, hall⟩, ?_⟩
    rcases hmem with he | hmem
    · rw [he]
      rcases max_choice m n with hm | hn
      · exact .inl hm
      · exact .inr (by simp [hn])
    · exact .inr (List.mem_cons_of_mem _ hmem)

end Tests

/-! ## What can be told from what comes after it -/

section PrefixFree

variable {α β γ : Type}

/-- A value can be told from what is written of it and of others after it. -/
def PrefixFree (f : α → List γ) : Prop :=
  ∀ ⦃x y : α⦄ ⦃s t : List γ⦄, f x ++ s = f y ++ t → x = y ∧ s = t

theorem PrefixFree.append {f : α → List γ} {g : β → List γ} (hf : PrefixFree f) (hg : PrefixFree g) :
    PrefixFree fun p : α × β => f p.1 ++ g p.2 := by
  rintro ⟨x, x'⟩ ⟨y, y'⟩ s t h
  rw [List.append_assoc, List.append_assoc] at h
  obtain ⟨rfl, h⟩ := hf h
  obtain ⟨rfl, rfl⟩ := hg h
  exact ⟨rfl, rfl⟩

/-- Values written one after the other can be told, unless one of them is written as nothing. -/
theorem PrefixFree.flatMap_injective {f : α → List γ} (hf : PrefixFree f) (hne : ∀ x, f x ≠ []) :
    Function.Injective fun xs : List α => xs.flatMap f := by
  intro xs ys h
  induction xs generalizing ys with
  | nil =>
    cases ys with
    | nil => rfl
    | cons y ys => exact absurd (List.append_eq_nil_iff.1 h.symm).1 (hne y)
  | cons x xs ih =>
    cases ys with
    | nil => exact absurd (List.append_eq_nil_iff.1 h).1 (hne x)
    | cons y ys =>
      obtain ⟨rfl, htail⟩ := hf h
      rw [ih htail]

/-- The first mark tells what stands before it and what stands after it. -/
theorem append_mark_inj {mark : γ} {xs ys s t : List γ} (hx : mark ∉ xs) (hy : mark ∉ ys)
    (h : xs ++ mark :: s = ys ++ mark :: t) : xs = ys ∧ s = t := by
  rcases List.append_eq_append_iff.1 h with ⟨zs, rfl, hz⟩ | ⟨zs, rfl, hz⟩
  · cases zs with
    | nil => simpa using hz
    | cons z zs =>
      obtain ⟨rfl, -⟩ := List.cons.inj hz
      simp at hy
  · cases zs with
    | nil => simpa [eq_comm] using hz
    | cons z zs =>
      obtain ⟨rfl, -⟩ := List.cons.inj hz
      simp at hx

end PrefixFree

end RadioStream
