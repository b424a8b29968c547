/-!
# Bounded queues

A first-in first-out queue of at most `capacity` elements. A push may be refused
when the queue is full, or may push the oldest element out; a pop finds nothing
in an empty queue only. Whoever waits for room or for an element acts at the
moment there is some, so waiting operations end as a push or a pop of this
module.
-/

namespace RadioStream

/-- A queue, oldest element first. -/
structure Queue (α : Type) where
  capacity : Nat
  items : List α
  capacity_pos : 0 < capacity
  bounded : items.length ≤ capacity

namespace Queue

variable {α : Type}

/-- An empty queue of a capacity, which is at least one. -/
def new (capacity : Nat) : Queue α := ⟨max capacity 1, [], by omega, by simp⟩

/-- Number of elements. -/
def size (q : Queue α) : Nat := q.items.length

/-- Whether there is no element. -/
def isEmpty (q : Queue α) : Bool := q.items.isEmpty

/-- Whether there is no room. -/
def isFull (q : Queue α) : Bool := q.capacity ≤ q.items.length

/-- Adds an element if there is room. -/
def push? (q : Queue α) (x : α) : Option (Queue α) :=
  if h : q.items.length < q.capacity then
    some ⟨q.capacity, q.items ++ [x], q.capacity_pos, by simp only [List.length_append]; exact h⟩
  else none

/-- Adds an element in any case. A full queue loses its oldest element, which is
given back. -/
def pushForce (q : Queue α) (x : α) : Option α × Queue α :=
  match h : q.push? x with
  | some q => (none, q)
  | none => (q.items.head?, ⟨q.capacity, q.items.tail ++ [x], q.capacity_pos, by
      have := q.capacity_pos
      have := q.bounded
      simp only [List.length_append, List.length_tail, List.length_singleton]
      omega⟩)

/-- Takes the oldest element. -/
def pop? (q : Queue α) : Option (α × Queue α) :=
  match h : q.items with
  | [] => none
  | x :: xs => some (x, ⟨q.capacity, xs, q.capacity_pos, by
      have := q.bounded
      simp only [h, List.length_cons] at this
      omega⟩)

/-- Takes the oldest element, if any, and gives the queue that is left. -/
def take (q : Queue α) : Option α × Queue α :=
  match q.pop? with
  | some (x, q) => (some x, q)
  | none => (none, q)

/-- The same capacity without elements. -/
def clear (q : Queue α) : Queue α := ⟨q.capacity, [], q.capacity_pos, Nat.zero_le _⟩

/-! ## The queue as a list -/

theorem items_push? {q r : Queue α} {x : α} (h : q.push? x = some r) :
    r.items = q.items ++ [x] := by
  unfold push? at h
  split at h
  · cases h; rfl
  · cases h

theorem push?_eq_none_iff {q : Queue α} {x : α} :
    q.push? x = none ↔ q.items.length = q.capacity := by
  have := q.bounded
  unfold push?
  split <;> simp <;> omega

theorem pop?_eq_none_iff {q : Queue α} : q.pop? = none ↔ q.items = [] := by
  unfold pop?
  split <;> simp_all

theorem items_pop? {q r : Queue α} {x : α} (h : q.pop? = some (x, r)) :
    q.items = x :: r.items := by
  unfold pop? at h
  split at h
  · cases h
  · cases h; assumption

theorem capacity_push? {q r : Queue α} {x : α} (h : q.push? x = some r) :
    r.capacity = q.capacity := by
  unfold push? at h
  split at h <;> cases h
  rfl

theorem capacity_pop? {q r : Queue α} {x : α} (h : q.pop? = some (x, r)) :
    r.capacity = q.capacity := by
  unfold pop? at h
  split at h <;> cases h
  rfl

theorem lt_of_push? {q r : Queue α} {x : α} (h : q.push? x = some r) :
    q.items.length < q.capacity := by
  have hne : q.items.length ≠ q.capacity := fun he => by rw [push?_eq_none_iff.2 he] at h; cases h
  have := q.bounded
  omega

theorem pushForce_of_push? {q r : Queue α} {x : α} (h : q.push? x = some r) :
    q.pushForce x = (none, r) := by
  unfold pushForce
  split
  · next h' => rw [h] at h'; cases h'; rfl
  · next h' => rw [h] at h'; cases h'

/-- A full queue gives up its oldest element for another one. -/
theorem pushForce_of_full {q : Queue α} {x : α} (h : q.push? x = none) :
    (q.pushForce x).1 = q.items.head? ∧ (q.pushForce x).2.items = q.items.tail ++ [x] ∧
      (q.pushForce x).2.capacity = q.capacity := by
  unfold pushForce
  split
  · next h' => rw [h] at h'; cases h'
  · exact ⟨rfl, rfl, rfl⟩

theorem exists_oldest {q : Queue α} {x : α} (h : q.push? x = none) :
    ∃ y ys, q.items = y :: ys := by
  refine List.exists_cons_of_length_pos ?_
  rw [push?_eq_none_iff.1 h]
  exact q.capacity_pos

theorem take_eq_none {q r : Queue α} (h : q.take = (none, r)) : q.items = [] ∧ r = q := by
  unfold take at h
  cases hp : q.pop? with
  | none => rw [hp] at h; cases h; exact ⟨pop?_eq_none_iff.1 hp, rfl⟩
  | some y => rw [hp] at h; cases h

theorem take_eq_some {q r : Queue α} {x : α} (h : q.take = (some x, r)) :
    q.items = x :: r.items ∧ r.capacity = q.capacity := by
  unfold take at h
  cases hp : q.pop? with
  | none => rw [hp] at h; cases h
  | some y => rw [hp] at h; cases h; exact ⟨items_pop? hp, capacity_pop? hp⟩

/-! ## Two parties -/

/-- A producer pushes elements while there is room; what is left of them. -/
def feed (q : Queue α) : List α → Queue α × List α
  | [] => (q, [])
  | x :: xs => match q.push? x with
    | some q => q.feed xs
    | none => (q, x :: xs)

/-- A consumer takes a number of elements while a producer pushes its own as room
allows. -/
def relay (q : Queue α) (source : List α) : Nat → List α × Queue α
  | 0 => ([], (q.feed source).1)
  | n + 1 =>
    let (q, source) := q.feed source
    match q.pop? with
    | some (x, q) =>
      let (xs, q) := q.relay source n
      (x :: xs, q)
    | none => ([], q)

/-- A producer waits to push an element while another party acts on the queue.
Gives what that party got, whether the push took place, and the queue. -/
def pushBeside {β : Type} (q : Queue α) (x : α) (act : Queue α → β × Queue α) :
    β × Bool × Queue α :=
  match q.push? x with
  | some q => let (b, q) := act q; (b, true, q)
  | none =>
    let (b, q) := act q
    match q.push? x with
    | some q => (b, true, q)
    | none => (b, false, q)

/-- A consumer waits for an element while another party forces one in. Gives what
the consumer got, what was pushed out, and the queue. -/
def popBeside (q : Queue α) (x : α) : Option α × Option α × Queue α :=
  match q.pop? with
  | some (y, q) => let (out, q) := q.pushForce x; (some y, out, q)
  | none =>
    let (out, q) := q.pushForce x
    let (y, q) := q.take
    (y, out, q)

end Queue

end RadioStream
