import RadioStream.Proofs.Lists
import RadioStream.Proofs.Receiver.Track
import RadioStream.Proofs.Receiver.View
/-!
# Surroundings that remember

To speak of the frames that a receiver has taken from its links, it is run in
surroundings that remember them. `recordedLedger` reads the accounts there, and `recording_shows` says
that the receiver does there what it does in the plain surroundings.
-/

namespace RadioStream

/-- Surroundings that remember the frames received on each link. -/
structure Recorded (σ : Type) where
  inner : σ
  taken : List (List Bytes)

/-- A terminal that remembers what it receives. -/
def Terminal.recorded {σ : Type} (i : Nat) (t : Terminal σ) : Terminal (Recorded σ) where
  receive wait s := match t.receive wait s.inner with
    | (some f, x) => (some f, ⟨x, s.taken.modify i (· ++ [f.payload])⟩)
    | (none, x) => (none, { s with inner := x })
  recycle f s := { s with inner := t.recycle f s.inner }
  acquire wait s := match t.acquire wait s.inner with
    | (f, x) => (f, { s with inner := x })
  submit f s := { s with inner := t.submit f s.inner }
  backlog s := t.backlog s.inner

/-- Terminals that remember what they receive. -/
def recording {σ : Type} (terminals : Nat → Terminal σ) (i : Nat) : Terminal (Recorded σ) :=
  (terminals i).recorded i

/-- The frames remembered are the accounts. What was sent is not known. -/
def recordedLedger {σ : Type} (terminals : Nat → Terminal σ) : Ledger (recording terminals) where
  Tells as s := s.taken = as.map (·.taken) ∧ ∀ a ∈ as, a.sent = none
  receive_some {before after a wait s s' f} hT _ hr := by
    obtain ⟨ht, hn⟩ := hT
    simp only [List.forall_mem_append, List.forall_mem_cons] at hn
    obtain ⟨hb, ha, hf⟩ := hn
    refine ⟨by simp [Account.Admits, ha], ?_, ?_⟩
    · simp only [recording, Terminal.recorded] at hr
      split at hr
      · cases hr
        have hl : before.length = (before.map (·.taken)).length := (List.length_map _).symm
        simp only [ht, List.map_append, List.map_cons]
        rw [hl, modify_before]
        rfl
      · cases hr
    · simp only [List.forall_mem_append, List.forall_mem_cons]
      exact ⟨hb, ha, hf⟩
  receive_none {before after a wait s s'} hT hr := by
    obtain ⟨ht, hn⟩ := hT
    have ha : a.sent = none := hn a (by simp)
    refine ⟨by simp [Account.Spent, ha], ?_, hn⟩
    simp only [recording, Terminal.recorded] at hr
    split at hr
    · cases hr
    · cases hr
      exact ht
  recycle {before after a s f} hT _ := by
    obtain ⟨ht, hn⟩ := hT
    simp only [List.forall_mem_append, List.forall_mem_cons] at hn
    refine ⟨by simpa [recording, Terminal.recorded, Account.settle] using ht, ?_⟩
    simp only [List.forall_mem_append, List.forall_mem_cons]
    exact hn
  backlog {before after a s} hT fs hfs := by
    rw [hT.2 a (by simp)] at hfs
    cases hfs

/-- What is shown of surroundings that remember are those they were made from. -/
theorem recording_shows {σ : Type} (terminals : Nat → Terminal σ) (i : Nat) :
    (recording terminals i).Shows Recorded.inner (terminals i) where
  receive wait s := by
    simp only [recording, Terminal.recorded]
    cases (terminals i).receive wait s.inner with
    | mk f x => cases f <;> rfl
  recycle _ _ := rfl
  acquire _ _ := rfl
  submit _ _ := rfl
  backlog _ := rfl

end RadioStream
