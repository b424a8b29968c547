import RadioStream.Proofs.Lists
import RadioStream.Registry
/-!
# Discovery

The families that a hint is for look for devices side by side. A `Search` holds what each
of them has answered so far; when all have, the answers are taken in the order of the
families and only the first address of each device is kept.

`search_settled` says that this is what `Registry.discover` gives, whatever the order in
which the families answer, what that is in terms of positions (`firstsBy`), and which
device is chosen from it.
-/

namespace RadioStream

variable {δ σ α κ : Type}

/-! ## The first of each kind -/

section Firsts

variable [BEq κ]

/-- The elements with a key that no element has at a position before them. -/
def firstsBy (key : α → κ) (xs : List α) : List α :=
  (xs.zipIdx.filter fun p => (xs.take p.2).all fun y => !(key y == key p.1)).map (·.1)

/-- Goes through elements and keeps those with a key not seen so far. -/
def keepNew (key : α → κ) : List κ → List α → List α
  | _, [] => []
  | seen, x :: xs =>
    if seen.contains (key x) then keepNew key seen xs else x :: keepNew key (key x :: seen) xs

variable [LawfulBEq κ] {key : α → κ}

theorem filter_distinctBy (before xs : List α) :
    (distinctBy key xs).filter (fun x => before.all fun y => !(key y == key x)) =
      (xs.zipIdx.filter fun p => (before ++ xs.take p.2).all fun y => !(key y == key p.1)).map (·.1) := by
  induction xs generalizing before with
  | nil => rfl
  | cons x xs ih =>
    have htail : (((xs.zipIdx 1).filter fun p => (before ++ (x :: xs).take p.2).all fun y => !(key y == key p.1)).map
          (·.1)) = (xs.zipIdx.filter fun p => (before ++ [x] ++ xs.take p.2).all fun y => !(key y == key p.1)).map
          (·.1) := by
      rw [List.zipIdx_succ, List.filter_map, List.map_map]
      simp [Function.comp_def]
    rw [distinctBy, List.zipIdx_cons, List.filter_cons, List.filter_cons, filter_filter_ne, ih]
    simp only [List.take_zero, List.append_nil, Nat.zero_add]
    split
    · rw [List.map_cons, htail]
    · rw [htail]

/-- The first of each kind are those at the first position of their kind. -/
theorem distinctBy_eq_firstsBy (xs : List α) : distinctBy key xs = firstsBy key xs := by
  have h : (distinctBy key xs).filter (fun x => ([] : List α).all fun y => !(key y == key x)) = _ :=
    filter_distinctBy [] xs
  simpa [firstsBy] using h

theorem keepNew_eq (seen : List κ) (xs : List α) :
    keepNew key seen xs = (distinctBy key xs).filter fun x => !seen.contains (key x) := by
  induction xs generalizing seen with
  | nil => rfl
  | cons x xs ih =>
    have hmore : ∀ y ∈ distinctBy key xs,
        (!seen.contains (key y) && !(key y == key x)) = !(key x :: seen).contains (key y) := by
      intro y _
      rw [List.contains_cons, Bool.not_or, Bool.and_comm]
    rw [keepNew, distinctBy, List.filter_cons, List.filter_filter, List.filter_congr hmore, ← ih]
    by_cases hx : key x ∈ seen
    · -- nothing with a key seen before is kept, so it makes no difference that `x` is seen again
      have hsame : ∀ y ∈ distinctBy key xs, (!(key x :: seen).contains (key y)) = !seen.contains (key y) := by
        intro y _
        rw [List.contains_cons]
        by_cases hy : key y = key x
        · simp [hy, hx]
        · simp [hy]
      rw [if_pos (by simpa using hx), if_neg (by simpa using hx), ih, ih, List.filter_congr hsame]
    · rw [if_neg (by simpa using hx), if_pos (by simpa using hx)]

theorem mem_firstsBy_iff {x : α} {xs : List α} :
    x ∈ firstsBy key xs ↔ ∃ before after, xs = before ++ x :: after ∧ ∀ y ∈ before, key y ≠ key x := by
  constructor
  · intro h
    obtain ⟨⟨x, i⟩, hp, rfl⟩ := List.mem_map.1 h
    obtain ⟨hi, hall⟩ := List.mem_filter.1 hp
    have hx : xs[i]? = some x := List.mem_zipIdx_iff_getElem?.1 hi
    obtain ⟨hlt, rfl⟩ := List.getElem?_eq_some_iff.1 hx
    refine ⟨xs.take i, xs.drop (i + 1), ?_, fun y hy => ?_⟩
    · rw [← List.drop_eq_getElem_cons hlt, List.take_append_drop]
    · simpa using List.all_eq_true.1 hall y hy
  · rintro ⟨before, after, rfl, hall⟩
    refine List.mem_map.2 ⟨(x, before.length), List.mem_filter.2 ⟨?_, ?_⟩, rfl⟩
    · rw [List.mem_zipIdx_iff_getElem?]
      simp
    · rw [List.take_left, List.all_eq_true]
      exact fun y hy => by simpa using hall y hy

end Firsts

/-! ## A search -/

/-- The families that are asked, in order, and what each has answered. -/
structure Search (δ σ : Type) where
  hint : Address
  tasks : List (Family δ σ × Option (Except Error (List Address)))

/-- The addresses of an answer; none if looking for devices failed. -/
def addressesOf : Except Error (List Address) → List Address
  | .ok as => as
  | .error _ => []

namespace Search

/-- A family answers. -/
def answer (x : Search δ σ) (i : Nat) : Search δ σ :=
  { x with tasks := x.tasks.modify i fun t => (t.1, some (t.1.find x.hint)) }

def run (x : Search δ σ) (order : List Nat) : Search δ σ := order.foldl answer x

/-- The addresses of all answers in the order of the families, if all have answered. -/
def results? (x : Search δ σ) : Option (List (List Address)) := x.tasks.mapM fun t => t.2.map addressesOf

/-- The devices of a search, each with the family that found it first. -/
def devices? (identityOf : Address → Bytes) (x : Search δ σ) : Option (List (Address × Family δ σ)) :=
  x.results?.map fun results =>
    keepNew (fun p => identityOf p.1) [] ((x.tasks.zip results).flatMap fun p => p.2.map (·, p.1.1))

/-- What has been answered after some answers. -/
theorem getElem?_run (x : Search δ σ) (order : List Nat) (i : Nat) :
    (x.run order).tasks[i]? =
      x.tasks[i]?.map fun t => if i ∈ order then (t.1, some (t.1.find x.hint)) else t := by
  induction order generalizing x with
  | nil => simp [run]
  | cons j order ih =>
    have h := ih (x.answer j)
    rw [answer, List.getElem?_modify] at h
    refine h.trans ?_
    cases x.tasks[i]? with
    | none => rfl
    | some t =>
      by_cases hj : j = i
      · simp [hj]
      · simp [hj, Ne.symm hj]

theorem tasks_run {x : Search δ σ} {order : List Nat} (h : ∀ i < x.tasks.length, i ∈ order) :
    (x.run order).tasks = x.tasks.map fun t => (t.1, some (t.1.find x.hint)) := by
  refine List.ext_getElem? fun i => ?_
  rw [getElem?_run, List.getElem?_map]
  cases ht : x.tasks[i]? with
  | none => rfl
  | some t =>
    obtain ⟨hi, -⟩ := List.getElem?_eq_some_iff.1 ht
    rw [Option.map_some, Option.map_some, if_pos (h i hi)]

end Search

namespace Registry

variable {r : Registry δ σ} {hint : Address} {kind : DeviceKind} {which : Nat}

/-- The families of a kind. -/
def matching (r : Registry δ σ) (kind : DeviceKind) : List (Family δ σ) :=
  r.families.filter fun f => kind.wants f.kind

/-- A search that nobody has answered. -/
def search (r : Registry δ σ) (hint : Address) (kind : DeviceKind) : Search δ σ :=
  { hint, tasks := (r.matching kind).map (·, none) }

theorem found_eq (hint : Address) (f : Family δ σ) : found hint f = (addressesOf (f.find hint)).map (·, f) := by
  unfold found
  cases f.find hint <;> rfl

theorem discover_eq (r : Registry δ σ) (hint : Address) (kind : DeviceKind) :
    r.discover hint kind = firstsBy (fun p => r.identityOf p.1)
      ((r.matching kind).flatMap fun f => (addressesOf (f.find hint)).map (·, f)) := by
  rw [← distinctBy_eq_firstsBy, ← funext (found_eq hint)]
  rfl

/-- When all families have answered, in whatever order, the search gives what
`Registry.discover` does. -/
theorem devices?_search {order : List Nat} (h : order.Perm (List.range (r.matching kind).length)) :
    ((r.search hint kind).run order).devices? r.identityOf = some (r.discover hint kind) := by
  have hall : ∀ i < (r.search hint kind).tasks.length, i ∈ order := fun i hi =>
    h.mem_iff.2 (List.mem_range.2 (by simpa [search] using hi))
  have ht := Search.tasks_run hall
  have hr : ((r.search hint kind).run order).results? =
      some ((r.matching kind).map fun f => addressesOf (f.find hint)) := by
    rw [Search.results?, ht, search, List.map_map, List.mapM_map]
    exact List.mapM_pure
  rw [Search.devices?, hr, ht, search, Option.map_some, keepNew_eq, List.map_map, List.zip_map', List.flatMap_map,
    discover_eq, distinctBy_eq_firstsBy]
  simp

/-! ## What is chosen -/

/-- A device is found with the first family that lists it. -/
theorem first_of_mem_discover {a : Address} {f : Family δ σ} (h : (a, f) ∈ r.discover hint kind) :
    ∃ before after pre post, r.matching kind = before ++ f :: after ∧ addressesOf (f.find hint) = pre ++ a :: post ∧
      ∀ b ∈ before.flatMap (fun g => addressesOf (g.find hint)) ++ pre, r.identityOf b ≠ r.identityOf a := by
  rw [discover_eq, mem_firstsBy_iff] at h
  obtain ⟨l₁, l₂, hl, hall⟩ := h
  obtain ⟨before, g, after, pre, post, hm, hg, rfl⟩ := exists_of_flatMap_eq hl
  obtain ⟨pre, as, has, rfl, ha⟩ := List.map_eq_append_iff.1 hg
  obtain ⟨a', post, rfl, he, -⟩ := List.map_eq_cons_iff.1 ha
  cases he
  refine ⟨before, after, pre, post, hm, has, fun b hb => ?_⟩
  rcases List.mem_append.1 hb with hb | hb
  · obtain ⟨g, hg, hb⟩ := List.mem_flatMap.1 hb
    exact hall (b, g) (List.mem_append_left _ (List.mem_flatMap.2 ⟨g, hg, List.mem_map_of_mem hb⟩))
  · exact hall (b, f) (List.mem_append_right _ (List.mem_map_of_mem hb))

/-- The addresses alone are the first of each device among all addresses listed. -/
theorem find_eq (r : Registry δ σ) (hint : Address) (kind : DeviceKind) :
    r.find hint kind = firstsBy r.identityOf ((r.matching kind).flatMap fun f => addressesOf (f.find hint)) := by
  have hmap : ∀ xs : List (Address × Family δ σ),
      (distinctBy (fun p => r.identityOf p.1) xs).map (·.1) = distinctBy r.identityOf (xs.map (·.1)) := by
    intro xs
    induction xs with
    | nil => rfl
    | cons x xs ih =>
      simp only [distinctBy, List.map_cons, ← ih, List.filter_map]
      rfl
  rw [find, discover_eq, ← distinctBy_eq_firstsBy, ← distinctBy_eq_firstsBy, hmap, List.map_flatMap]
  simp [Function.comp_def]

/-- A candidate for the device at an address. -/
def candidateOf (r : Registry δ σ) (hint : Address) (p : Address × Family δ σ) : Candidate δ σ :=
  { found := p.1, identity := r.identityOf p.1, address := p.1.fillFrom hint, family := p.2 }

theorem choose_eq (r : Registry δ σ) (hint : Address) (kind : DeviceKind) (which : Nat) :
    r.choose hint kind which = match (r.discover hint kind)[which]? with
      | some p => .ok (r.candidateOf hint p)
      | none => if r.discover hint kind = [] then .error (.noDevice hint) else .error (.noSuchDevice which hint) := by
  unfold choose
  cases r.discover hint kind with
  | nil => rfl
  | cons p ps =>
    dsimp only
    cases (p :: ps)[which]? with
    | none => rw [if_neg (List.cons_ne_nil p ps)]
    | some p => rfl

theorem choose_eq_ok_iff {c : Candidate δ σ} :
    r.choose hint kind which = .ok c ↔ ∃ p, (r.discover hint kind)[which]? = some p ∧ c = r.candidateOf hint p := by
  rw [choose_eq]
  cases (r.discover hint kind)[which]? with
  | some p => simp [eq_comm]
  | none => by_cases hn : r.discover hint kind = [] <;> simp [hn]

theorem choose_eq_noDevice_iff : r.choose hint kind which = .error (.noDevice hint) ↔ r.find hint kind = [] := by
  rw [choose_eq, find, List.map_eq_nil_iff]
  cases hp : (r.discover hint kind)[which]? with
  | some p =>
    have hn : r.discover hint kind ≠ [] := fun hn => by simp [hn] at hp
    simp [hn]
  | none => by_cases hn : r.discover hint kind = [] <;> simp [hn]

theorem choose_eq_noSuchDevice_iff : r.choose hint kind which = .error (.noSuchDevice which hint) ↔
    r.find hint kind ≠ [] ∧ (r.find hint kind).length ≤ which := by
  rw [choose_eq, find, ne_eq, List.map_eq_nil_iff, List.length_map]
  cases hp : (r.discover hint kind)[which]? with
  | some p =>
    obtain ⟨hlt, -⟩ := List.getElem?_eq_some_iff.1 hp
    simp [hlt]
  | none =>
    have hle := List.getElem?_eq_none_iff.1 hp
    by_cases hn : r.discover hint kind = [] <;> simp [hn, hle]

/-- Only the making of a device fails once it is chosen. -/
theorem make_of_acquire_error {c : Candidate δ σ} {s : σ} {e : Error} (h : (r.acquire c s).1 = .error e) :
    (c.family.make (r.arguments c) s).1 = .error e := by
  unfold acquire at h
  split at h
  · cases h
  · split at h
    · next hm =>
      cases h
      rw [hm]
    · cases h

/-- The devices that a hint describes and the choice of one of them. -/
structure Settled (r : Registry δ σ) (hint : Address) (kind : DeviceKind) (all : List (Address × Family δ σ)) :
    Prop where
  /-- The addresses are those listed by the families that did not fail, in the order of the
  families, without those of a device listed before. -/
  addresses : r.find hint kind =
    firstsBy r.identityOf ((r.matching kind).flatMap fun f => addressesOf (f.find hint))
  listed : r.find hint kind = all.map (·.1)
  /-- Each address comes with the family that listed its device first. -/
  first : ∀ a f, (a, f) ∈ all → ∃ before after pre post, r.matching kind = before ++ f :: after ∧
    addressesOf (f.find hint) = pre ++ a :: post ∧
    ∀ b ∈ before.flatMap (fun g => addressesOf (g.find hint)) ++ pre, r.identityOf b ≠ r.identityOf a
  /-- The device at a position is chosen, with its family. -/
  chosen : ∀ which c, r.choose hint kind which = .ok c ↔ ∃ p, all[which]? = some p ∧ c = r.candidateOf hint p
  noDevice : ∀ which, r.choose hint kind which = .error (.noDevice hint) ↔ r.find hint kind = []
  noSuchDevice : ∀ which, r.choose hint kind which = .error (.noSuchDevice which hint) ↔
    r.find hint kind ≠ [] ∧ (r.find hint kind).length ≤ which
  /-- A call for a device that is not there changes nothing. -/
  refused : ∀ which s e, r.choose hint kind which = .error e → r.make hint kind which s = (.error e, r, s)
  /-- A call for a device that is there goes on with the one that was chosen, and fails
  only if that cannot be made. -/
  goesOn : ∀ which s c, r.choose hint kind which = .ok c → r.make hint kind which s = r.acquire c s ∧
    ∀ e, (r.make hint kind which s).1 = .error e → (c.family.make (r.arguments c) s).1 = .error e

/-- Whatever the order in which families answer, and whichever of them fail: the search
gives the first address of each device and the family that listed it, and one of these is
what a call chooses. -/
theorem search_settled (r : Registry δ σ) (hint : Address) (kind : DeviceKind) {order : List Nat}
    (h : order.Perm (List.range (r.matching kind).length)) :
    ∃ all, ((r.search hint kind).run order).devices? r.identityOf = some all ∧ r.Settled hint kind all := by
  refine ⟨r.discover hint kind, devices?_search h, find_eq r hint kind, rfl, fun a f => first_of_mem_discover,
    fun which c => choose_eq_ok_iff, fun which => choose_eq_noDevice_iff, fun which => choose_eq_noSuchDevice_iff,
    fun which s e he => ?_, fun which s c hc => ⟨?_, fun e he => ?_⟩⟩
  · rw [make, he]
  · rw [make, hc]
  · rw [make, hc] at he
    exact make_of_acquire_error he

/-- Four families, of which one fails and one breaks down; the last answers first. Its
device was listed by the one before it under another address. -/
theorem search_settled_late :
    let lists (as : List Address) : Family Unit Unit :=
      { find := fun _ => .ok as, make := fun _ s => (.ok (), s), kind := .usrp }
    let fails (e : Error) : Family Unit Unit :=
      { find := fun _ => .error e, make := fun _ s => (.ok (), s), kind := .usrp }
    let one : Address := .ofPairs [("serial", "1")]
    let claimed : Address := .ofPairs [("claimed", "1"), ("serial", "1")]
    let r : Registry Unit Unit :=
      { families := [fails (.discovery "offline"), lists [one], fails .crashed, lists [claimed, {}]] }
    [3, 0, 2, 1].Perm (List.range (r.matching .any).length) ∧ r.find {} .any = [one, {}] ∧
      ∃ all, ((r.search {} .any).run [3, 0, 2, 1]).devices? r.identityOf = some all ∧ r.Settled {} .any all := by
  intro lists fails one claimed r
  have hperm : [3, 0, 2, 1].Perm (List.range (r.matching .any).length) := by decide
  exact ⟨hperm, by decide, search_settled r {} .any hperm⟩

end Registry

end RadioStream
