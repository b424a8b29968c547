import Mathlib.Logic.Function.Basic
import RadioStream.Queue
/-!
# Parties at a queue

Any number of parties use one queue. Each call of a party is one turn at the queue or, where
it waits for room or for an element, several of them: it looks, sleeps, and looks again when
it wakes, for whatever reason and whatever was done in between. A call that waits for a while
learns on waking whether its time ran out.

`Serves` says what one turn may do, in lists. `queue_fifo` has it for every turn of every run,
and what comes of all turns together: the elements accepted are those removed, in the same
order, and then those in the queue.
-/

namespace RadioStream

/-- How long a call waits. -/
inductive QueueWait where
  /-- Not at all. -/
  | never
  /-- For some time. -/
  | within
  | forever
deriving DecidableEq

/-- What a party asks of a queue. -/
inductive QueueCall (α : Type) where
  /-- Adds an element where there is room. -/
  | push (w : QueueWait) (x : α)
  /-- Adds an element in any case. -/
  | pushForce (x : α)
  /-- Takes the oldest element. -/
  | pop (w : QueueWait)
  /-- Removes all elements. -/
  | clear

/-- What a call gives in the end. -/
inductive QueueReply (α : Type) where
  | pushed
  /-- There was no room; the element is given back. -/
  | refused (x : α)
  /-- The element that was pushed out, if any. -/
  | forced (out : Option α)
  | popped (x : Option α)
  | cleared

/-- Whether a call that finds nothing to do is over. -/
def QueueWait.isOver (expired : Bool) : QueueWait → Bool
  | never => true
  | within => expired
  | forever => false

namespace Queue

variable {α : Type}

/-- One turn of a call. Without a reply it goes on waiting. -/
def serve (q : Queue α) (expired : Bool) : QueueCall α → Option (QueueReply α) × Queue α
  | .push w x => match q.push? x with
    | some q => (some .pushed, q)
    | none => (if w.isOver expired then some (.refused x) else none, q)
  | .pushForce x => let (out, q) := q.pushForce x; (some (.forced out), q)
  | .pop w => match q.pop? with
    | some (x, q) => (some (.popped (some x)), q)
    | none => (if w.isOver expired then some (.popped none) else none, q)
  | .clear => (some .cleared, q.clear)

/-- What a turn of a call may do to the elements of a queue with room for `n`. -/
inductive Serves (n : Nat) : QueueCall α → List α → Option (QueueReply α) → List α → Prop where
  | push {w x xs} : xs.length < n → Serves n (.push w x) xs (some .pushed) (xs ++ [x])
  | refuse {w x xs} : w ≠ .forever → xs.length = n → Serves n (.push w x) xs (some (.refused x)) xs
  /-- Waits for room. -/
  | full {w x xs} : w ≠ .never → xs.length = n → Serves n (.push w x) xs none xs
  | force {x xs} : xs.length < n → Serves n (.pushForce x) xs (some (.forced none)) (xs ++ [x])
  | evict {x y xs} : (y :: xs).length = n →
    Serves n (.pushForce x) (y :: xs) (some (.forced (some y))) (xs ++ [x])
  | pop {w x xs} : Serves n (.pop w) (x :: xs) (some (.popped (some x))) xs
  | empty {w} : w ≠ .forever → Serves n (.pop w) [] (some (.popped none)) []
  /-- Waits for an element. -/
  | bare {w} : w ≠ .never → Serves n (.pop w) [] none []
  | clear {xs} : Serves n .clear xs (some .cleared) []

/-! ## One turn -/

theorem isOver_eq_true {w : QueueWait} {expired : Bool} (h : w.isOver expired = true) : w ≠ .forever := by
  rintro rfl
  cases h

theorem isOver_eq_false {w : QueueWait} {expired : Bool} (h : w.isOver expired = false) : w ≠ .never := by
  rintro rfl
  cases h

section Serve

variable {q r : Queue α} {x : α} (w : QueueWait) (expired : Bool)

theorem serve_push_of_some (h : q.push? x = some r) : q.serve expired (.push w x) = (some .pushed, r) := by
  rw [serve, h]

theorem serve_push_of_none (h : q.push? x = none) :
    q.serve expired (.push w x) = (if w.isOver expired then some (.refused x) else none, q) := by
  rw [serve, h]

theorem serve_pop_of_some (h : q.pop? = some (x, r)) : q.serve expired (.pop w) = (some (.popped (some x)), r) := by
  rw [serve, h]

theorem serve_pop_of_none (h : q.pop? = none) :
    q.serve expired (.pop w) = (if w.isOver expired then some (.popped none) else none, q) := by
  rw [serve, h]

end Serve

/-- A turn does what it may, and keeps the capacity. -/
theorem serve_serves (q : Queue α) (expired : Bool) (c : QueueCall α) :
    Serves q.capacity c q.items (q.serve expired c).1 (q.serve expired c).2.items ∧
      (q.serve expired c).2.capacity = q.capacity := by
  cases c with
  | push w x =>
    cases h : q.push? x with
    | some r =>
      rw [serve_push_of_some w expired h]
      exact ⟨items_push? h ▸ .push (lt_of_push? h), capacity_push? h⟩
    | none =>
      have hfull := push?_eq_none_iff.1 h
      rw [serve_push_of_none w expired h]
      cases ho : w.isOver expired
      · exact ⟨.full (isOver_eq_false ho) hfull, rfl⟩
      · exact ⟨.refuse (isOver_eq_true ho) hfull, rfl⟩
  | pushForce x =>
    cases h : q.push? x with
    | some r =>
      rw [serve, pushForce_of_push? h]
      exact ⟨items_push? h ▸ .force (lt_of_push? h), capacity_push? h⟩
    | none =>
      obtain ⟨hout, hitems, hcap⟩ := pushForce_of_full h
      obtain ⟨y, ys, hq⟩ := exists_oldest h
      rw [hq] at hout hitems
      simp only [serve, hout, hitems, hq]
      exact ⟨.evict (by rw [← hq, push?_eq_none_iff.1 h]), hcap⟩
  | pop w =>
    cases h : q.pop? with
    | some xr =>
      rw [serve_pop_of_some w expired h, items_pop? h]
      exact ⟨.pop, capacity_pop? h⟩
    | none =>
      rw [serve_pop_of_none w expired h, pop?_eq_none_iff.1 h]
      cases ho : w.isOver expired
      · exact ⟨.bare (isOver_eq_false ho), rfl⟩
      · exact ⟨.empty (isOver_eq_true ho), rfl⟩
  | clear => exact ⟨.clear, rfl⟩

end Queue

/-! ## Parties -/

/-- A turn that a party had. -/
structure QueueTurn (ι α : Type) where
  party : ι
  call : QueueCall α
  before : List α
  reply : Option (QueueReply α)
  after : List α

inductive QueueAction (ι α : Type) where
  /-- A party makes a call, unless one of its own still waits. -/
  | call (i : ι) (c : QueueCall α)
  /-- A party whose call waits wakes up, perhaps since its time ran out. -/
  | wake (i : ι) (expired : Bool)

/-- Parties at a queue. -/
structure Parties (ι α : Type) where
  queue : Queue α
  /-- The calls that wait. -/
  asleep : ι → Option (QueueCall α) := fun _ => none
  /-- The calls that were made, oldest first. -/
  calls : List (ι × QueueCall α) := []
  turns : List (QueueTurn ι α) := []

namespace QueueTurn

variable {ι α : Type}

/-- What the queue accepted in a turn. -/
def accepted (t : QueueTurn ι α) : List α :=
  match t.call, t.reply with
  | .push _ x, some .pushed => [x]
  | .pushForce x, some _ => [x]
  | _, _ => []

/-- What left the queue in a turn, oldest first. -/
def removed (t : QueueTurn ι α) : List α :=
  match t.reply with
  | some (.popped x) => x.toList
  | some (.forced x) => x.toList
  | some .cleared => t.before
  | _ => []

end QueueTurn

namespace Parties

variable {ι α : Type} [DecidableEq ι]

/-- A party has a turn for a call of its own. -/
def turn (x : Parties ι α) (i : ι) (expired : Bool) (c : QueueCall α) : Parties ι α :=
  let (reply, queue) := x.queue.serve expired c
  { x with
    queue
    asleep := Function.update x.asleep i (if reply.isNone then some c else none)
    turns := x.turns ++ [⟨i, c, x.queue.items, reply, queue.items⟩] }

/-- A party makes a call. -/
def ask (x : Parties ι α) (i : ι) (c : QueueCall α) : Parties ι α := { x with calls := x.calls ++ [(i, c)] }

def step (x : Parties ι α) : QueueAction ι α → Parties ι α
  | .call i c => match x.asleep i with
    | none => (x.ask i c).turn i false c
    | some _ => x
  | .wake i expired => match x.asleep i with
    | some c => x.turn i expired c
    | none => x

def run (x : Parties ι α) (as : List (QueueAction ι α)) : Parties ι α := as.foldl step x

/-- The elements that were accepted, in order. -/
def accepted (x : Parties ι α) : List α := x.turns.flatMap (·.accepted)

/-- The elements that were removed, in order. -/
def removed (x : Parties ι α) : List α := x.turns.flatMap (·.removed)

/-- The calls of a party. -/
def callsOf (x : Parties ι α) (i : ι) : List (QueueCall α) := (x.calls.filter (·.1 = i)).map (·.2)

/-- The calls of a party that had a reply. -/
def answered (x : Parties ι α) (i : ι) : List (QueueCall α) :=
  (x.turns.filter fun t => t.party = i ∧ t.reply.isSome).map (·.call)

/-! ## What every turn keeps -/

omit [DecidableEq ι] in
/-- What a turn accepts comes in behind, and what it removes went out in front. -/
theorem Serves.conserved {n : Nat} {c : QueueCall α} {xs ys : List α} {r : Option (QueueReply α)}
    (h : Queue.Serves n c xs r ys) (i : ι) :
    xs ++ (QueueTurn.mk i c xs r ys).accepted = (QueueTurn.mk i c xs r ys).removed ++ ys := by
  cases h <;> simp [QueueTurn.accepted, QueueTurn.removed]

/-- Every turn does what it may to what the turn before it left, and what was accepted was
removed or is in the queue. -/
structure Kept (n : Nat) (x : Parties ι α) : Prop where
  capacity : x.queue.capacity = n
  serves : ∀ t ∈ x.turns, Queue.Serves n t.call t.before t.reply t.after
  linked : x.turns.map (·.before) ++ [x.queue.items] = [] :: x.turns.map (·.after)
  conserved : x.accepted = x.removed ++ x.queue.items

/-- The calls of every party have replies one after the other, but for the one that waits. -/
def Answered (x : Parties ι α) : Prop := ∀ i, x.answered i ++ (x.asleep i).toList = x.callsOf i

variable {n : Nat} {x : Parties ι α}

theorem Kept.turn (h : x.Kept n) (i : ι) (expired : Bool) (c : QueueCall α) : (x.turn i expired c).Kept n := by
  obtain ⟨hs, hc⟩ := x.queue.serve_serves expired c
  rw [h.capacity] at hs hc
  refine ⟨hc, ?_, ?_, ?_⟩
  · intro t ht
    rcases List.mem_append.1 ht with ht | ht
    · exact h.serves t ht
    · rw [List.mem_singleton.1 ht]
      exact hs
  · simp only [Parties.turn, List.map_append, List.map_cons, List.map_nil, h.linked, List.cons_append]
  · have hcon := Serves.conserved hs i
    have ha := h.conserved
    simp only [accepted, removed, Parties.turn, List.flatMap_append, List.flatMap_singleton] at ha ⊢
    rw [ha, List.append_assoc, List.append_assoc, hcon]

/-- A turn answers the call of its party, or the call goes on waiting. -/
theorem answered_turn {i : ι} {c : QueueCall α} (hi : x.answered i ++ [c] = x.callsOf i)
    (ho : ∀ j, j ≠ i → x.answered j ++ (x.asleep j).toList = x.callsOf j) (expired : Bool) :
    (x.turn i expired c).Answered := by
  intro j
  have hcalls : (x.turn i expired c).callsOf j = x.callsOf j := rfl
  rw [hcalls]
  by_cases hj : j = i
  · subst hj
    rw [← hi]
    cases hr : (x.queue.serve expired c).1 <;>
      simp [answered, Parties.turn, hr, List.filter_append]
  · rw [← ho j hj]
    simp [answered, Parties.turn, List.filter_append, Ne.symm hj, hj]

omit [DecidableEq ι] in
theorem Kept.ask (h : x.Kept n) (i : ι) (c : QueueCall α) : (x.ask i c).Kept n :=
  ⟨h.capacity, h.serves, h.linked, h.conserved⟩

theorem callsOf_ask (x : Parties ι α) (i j : ι) (c : QueueCall α) :
    (x.ask i c).callsOf j = x.callsOf j ++ if i = j then [c] else [] := by
  by_cases h : i = j <;> simp [callsOf, ask, h]

theorem Kept.step (h : x.Kept n) (a : QueueAction ι α) : (x.step a).Kept n := by
  cases a with
  | call i c =>
    simp only [Parties.step]
    split
    · exact (h.ask i c).turn i false c
    · exact h
  | wake i expired =>
    simp only [Parties.step]
    split
    · exact h.turn i expired _
    · exact h

theorem Answered.step (h : x.Answered) (a : QueueAction ι α) : (x.step a).Answered := by
  cases a with
  | call i c =>
    simp only [Parties.step]
    split
    · next hs =>
      refine answered_turn ?_ (fun j hj => ?_) false
      · have hi := h i
        rw [hs, Option.toList_none, List.append_nil] at hi
        rw [callsOf_ask, if_pos rfl, ← hi]
        rfl
      · rw [callsOf_ask, if_neg hj.symm, List.append_nil]
        exact h j
    · exact h
  | wake i expired =>
    simp only [Parties.step]
    split
    · next c hs =>
      refine answered_turn ?_ (fun j _ => h j) expired
      have hi := h i
      rwa [hs] at hi
    · exact h

theorem kept_run (hk : x.Kept n) (ha : x.Answered) (as : List (QueueAction ι α)) :
    (x.run as).Kept n ∧ (x.run as).Answered := by
  induction as generalizing x with
  | nil => exact ⟨hk, ha⟩
  | cons a as ih => exact ih (hk.step a) (ha.step a)

end Parties

/-! ## Two parties -/

section TwoParties

open Parties

variable {α : Type}

/-- What a party was told. -/
def Parties.replies {ι : Type} [DecidableEq ι] (x : Parties ι α) (i : ι) : List (QueueReply α) :=
  (x.turns.filter (·.party = i)).filterMap (·.reply)

/-- A push beside a call of another party is a run of the two, with the replies they get. -/
theorem run_pushBeside (q : Queue α) (x : α) (c : QueueCall α) :
    let y := Parties.run { queue := q } [.call true (.push .within x), .call false c, .wake true true]
    let z := q.pushBeside x fun q => q.serve false c
    y.queue = z.2.2 ∧ y.replies true = [if z.2.1 then .pushed else .refused x] ∧ y.replies false = z.1.toList := by
  intro y z
  cases hp : q.push? x with
  | some r =>
    rcases hc : r.serve false c with ⟨rep, r'⟩
    cases rep <;>
    simp [y, z, run, step, turn, ask, replies, Queue.pushBeside, Queue.serve_push_of_some _ _ hp, hp, hc]
  | none =>
    rcases hc : q.serve false c with ⟨rep, r⟩
    have hfirst := Queue.serve_push_of_none .within false hp
    cases hr : r.push? x with
    | some r' =>
      have hlast := Queue.serve_push_of_some .within true hr
      cases rep <;>
      simp [y, z, run, step, turn, ask, replies, Queue.pushBeside, hp, hc, hr, hfirst, hlast, QueueWait.isOver]
    | none =>
      have hlast := Queue.serve_push_of_none .within true hr
      cases rep <;>
      simp [y, z, run, step, turn, ask, replies, Queue.pushBeside, hp, hc, hr, hfirst, hlast, QueueWait.isOver]

/-- A pop beside a push of another party is a run of the two, with the replies they get. -/
theorem run_popBeside (q : Queue α) (x : α) :
    let y := Parties.run { queue := q } [.call true (.pop .within), .call false (.pushForce x), .wake true true]
    let z := q.popBeside x
    y.queue = z.2.2 ∧ y.replies true = [.popped z.1] ∧ y.replies false = [.forced z.2.1] := by
  intro y z
  cases hp : q.pop? with
  | some r =>
    simp [y, z, run, step, turn, ask, replies, Queue.popBeside, Queue.serve, hp]
  | none =>
    rcases hc : q.pushForce x with ⟨out, r⟩
    have hforce : q.serve false (.pushForce x) = (some (.forced out), r) := by rw [Queue.serve, hc]
    have hfirst := Queue.serve_pop_of_none .within false hp
    cases hr : r.pop? with
    | some r' =>
      have hlast := Queue.serve_pop_of_some .within true hr
      simp [y, z, run, step, turn, ask, replies, Queue.popBeside, Queue.take, hp, hc, hr, hforce, hfirst, hlast,
        QueueWait.isOver]
    | none =>
      have hlast := Queue.serve_pop_of_none .within true hr
      simp [y, z, run, step, turn, ask, replies, Queue.popBeside, Queue.take, hp, hc, hr, hforce, hfirst, hlast,
        QueueWait.isOver]

end TwoParties

/-- A queue and any parties, whatever they do: what was accepted is what was removed, in the
same order, and what is in the queue. The queue never holds more than it has room for. Each
turn finds what the turn before it left and does only what it may: an element is refused or
pushed out only where there is no room, a party finds nothing only where there is nothing, and
a call that waits ends only where it has found what it waits for or its time ran out. Every
call has at most one reply, in the order of the calls of its party. -/
theorem queue_fifo {ι α : Type} [DecidableEq ι] (capacity : Nat) (as : List (QueueAction ι α)) :
    let x := Parties.run { queue := Queue.new capacity } as
    x.accepted = x.removed ++ x.queue.items ∧ x.queue.items.length ≤ max capacity 1 ∧
      (∀ t ∈ x.turns, Queue.Serves (max capacity 1) t.call t.before t.reply t.after) ∧
      x.turns.map (·.before) ++ [x.queue.items] = [] :: x.turns.map (·.after) ∧
      ∀ i, x.answered i ++ (x.asleep i).toList = x.callsOf i := by
  obtain ⟨hk, ha⟩ := Parties.kept_run (x := ({ queue := Queue.new capacity } : Parties ι α)) (n := max capacity 1)
    ⟨rfl, by simp, rfl, rfl⟩ (fun _ => rfl) as
  intro x
  exact ⟨hk.conserved, hk.capacity ▸ x.queue.bounded, hk.serves, hk.linked, ha⟩

/-- Room for one element, which is pushed out while a second party waits with another. The time
of that party runs out; when it waits for an element, one comes just as its time runs out. -/
theorem queue_fifo_contended :
    let x : Parties Nat Nat := Parties.run { queue := Queue.new 0 }
      [.call 0 (.push .never 1), .call 1 (.push .within 2), .call 2 (.pushForce 3), .wake 1 true,
        .call 2 (.pop .forever), .call 1 (.pop .within), .call 0 (.push .never 4), .wake 1 true]
    x.accepted = [1, 3, 4] ∧ x.accepted = x.removed ++ x.queue.items ∧
      ⟨1, .push .within 2, [3], some (.refused 2), [3]⟩ ∈ x.turns ∧
      Queue.Serves 1 (.push .within 2) [3] (some (.refused 2)) [3] ∧
      x.answered 1 = [.push .within 2, .pop .within] := by
  intro x
  have h := queue_fifo (ι := Nat) (α := Nat) 0
      [.call 0 (.push .never 1), .call 1 (.push .within 2), .call 2 (.pushForce 3), .wake 1 true,
        .call 2 (.pop .forever), .call 1 (.pop .within), .call 0 (.push .never 4), .wake 1 true]
  have ht : ⟨1, .push .within 2, [3], some (.refused 2), [3]⟩ ∈ x.turns :=
    List.mem_of_getElem? (i := 3) rfl
  exact ⟨rfl, h.1, ht, h.2.2.1 _ ht, rfl⟩

end RadioStream
