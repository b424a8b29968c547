import Mathlib.Data.List.Basic
import RadioStream.Transmitter.Pieces
/-!
# The pieces of a transmission

Pieces lie side by side from the first sample to the last (`Piece.Tiles`), and the
vectors end where the caller says, each end once and in order
(`Piece.vectorEnds_cut`).
-/

namespace RadioStream.Piece

/-- Pieces side by side between two positions, none larger than `most`. -/
def Tiles (most : Nat) : Nat → List Piece → Nat → Prop
  | a, [], b => a = b
  | a, p :: ps, b => p.start = a ∧ a ≤ p.stop ∧ p.stop ≤ a + most ∧ Tiles most p.stop ps b

theorem Tiles.le {most a b : Nat} {ps : List Piece} (h : Tiles most a ps b) : a ≤ b := by
  induction ps generalizing a with
  | nil => exact Nat.le_of_eq h
  | cons p ps ih =>
    obtain ⟨-, hle, -, hr⟩ := h
    exact Nat.le_trans hle (ih hr)

theorem Tiles.length_le {most a b : Nat} {ps : List Piece} (h : Tiles most a ps b) {p : Piece} (hp : p ∈ ps) :
    p.stop - p.start ≤ most := by
  induction ps generalizing a with
  | nil => cases hp
  | cons q ps ih =>
    obtain ⟨rfl, -, hmost, hr⟩ := h
    rcases List.mem_cons.1 hp with rfl | hp
    · omega
    · exact ih hr hp

/-- The pieces before one reach up to it. -/
theorem Tiles.before {most a b : Nat} {ps qs : List Piece} {p : Piece} (h : Tiles most a (ps ++ p :: qs) b) :
    Tiles most a ps p.start ∧ p.start ≤ p.stop ∧ p.stop ≤ b := by
  induction ps generalizing a with
  | nil =>
    obtain ⟨hs, hle, -, hr⟩ := h
    exact ⟨hs.symm, hs ▸ hle, hr.le⟩
  | cons q ps ih =>
    obtain ⟨hs, hle, hmost, hr⟩ := h
    obtain ⟨hps, hp⟩ := ih hr
    exact ⟨⟨hs, hle, hmost, hps⟩, hp⟩

/-- Pieces that are not empty end behind where they start. -/
theorem Tiles.ne_stop {most a b : Nat} {ps : List Piece} (h : Tiles most a ps b) (hne : ps ≠ [])
    (hpos : ∀ p ∈ ps, p.start < p.stop) : a ≠ b := by
  obtain ⟨p, ps, rfl⟩ := List.exists_cons_of_ne_nil hne
  obtain ⟨rfl, -, -, hr⟩ := h
  have := hpos p List.mem_cons_self
  have := hr.le
  omega

theorem nextEnd_eq_some_iff {ends : List Nat} {count position e : Nat} :
    nextEnd ends count position = some e ↔
      (e ∈ ends ∧ position < e ∧ e ≤ count) ∧ ∀ x ∈ ends, position < x → x ≤ count → e ≤ x := by
  rw [nextEnd, List.min?_eq_some_iff]
  simp only [List.mem_filter, Bool.and_eq_true, decide_eq_true_eq, and_imp]

theorem nextEnd_eq_none_iff {ends : List Nat} {count position : Nat} :
    nextEnd ends count position = none ↔ ∀ x ∈ ends, position < x → ¬x ≤ count := by
  rw [nextEnd, List.min?_eq_none_iff, List.filter_eq_nil_iff]
  simp only [Bool.and_eq_true, decide_eq_true_eq, not_and]

/-- A piece goes on to the end of the samples or of a vector, if it is not full
before, and no vector ends inside it. -/
theorem exists_cutFrom_succ {most : Nat} (hm : 0 < most) (ends : List Nat) {count position : Nat} (fuel : Nat)
    (hp : position < count) :
    ∃ stop, cutFrom most ends count (fuel + 1) position =
        ⟨position, stop, decide (stop ∈ ends)⟩ :: cutFrom most ends count fuel stop ∧
      position < stop ∧ stop ≤ position + most ∧ stop ≤ count ∧ ∀ x ∈ ends, position < x → stop ≤ x := by
  rw [cutFrom, if_pos hp]
  dsimp only
  cases hn : nextEnd ends count position with
  | none =>
    have hall := nextEnd_eq_none_iff.1 hn
    rw [Option.getD_none]
    generalize hs : min (position + most) count = stop
    have hmem : stop ∉ ends := fun h => absurd (show stop ≤ count by omega) (hall stop h (by omega))
    refine ⟨stop, by simp [hmem], by omega, by omega, by omega, fun x hx hlt => ?_⟩
    have := hall x hx hlt
    omega
  | some e =>
    obtain ⟨⟨he, hlt, hle⟩, hleast⟩ := nextEnd_eq_some_iff.1 hn
    rw [Option.getD_some]
    generalize hs : min (position + most) e = stop
    -- the piece ends a vector if it reaches the least end, as none lies before that
    have hmem : (some e == some stop) = decide (stop ∈ ends) := by
      rw [Bool.eq_iff_iff, beq_iff_eq, Option.some.injEq, decide_eq_true_eq]
      constructor
      · intro h
        exact h ▸ he
      · intro h
        have := hleast stop h (by omega) (by omega)
        omega
    refine ⟨stop, by rw [hmem], by omega, by omega, by omega, fun x hx hlt' => ?_⟩
    by_cases hc : x ≤ count
    · have := hleast x hx hlt' hc
      omega
    · omega

theorem tiles_cutFrom {most : Nat} (hm : 0 < most) (ends : List Nat) (count : Nat) {fuel position : Nat}
    (hp : position ≤ count) (hf : count - position ≤ fuel) :
    Tiles most position (cutFrom most ends count fuel position) count := by
  induction fuel generalizing position with
  | zero => exact Nat.le_antisymm hp (by omega)
  | succ fuel ih =>
    by_cases hlt : position < count
    · obtain ⟨stop, he, h₁, h₂, h₃, -⟩ := exists_cutFrom_succ hm ends fuel hlt
      rw [he]
      have hr := ih h₃ (by omega)
      exact ⟨rfl, Nat.le_of_lt h₁, h₂, hr⟩
    · rw [cutFrom, if_neg hlt]
      exact Nat.le_antisymm hp (by omega)

/-- Every piece is the one that is cut where it starts. -/
theorem cutFrom_one_of_mem {most : Nat} {ends : List Nat} {count fuel position : Nat} {p : Piece}
    (hp : p ∈ cutFrom most ends count fuel position) : p.start < count ∧ cutFrom most ends count 1 p.start = [p] := by
  induction fuel generalizing position with
  | zero => cases hp
  | succ fuel ih =>
    rw [cutFrom] at hp
    split at hp
    · next hlt =>
      rcases List.mem_cons.1 hp with rfl | hp
      · exact ⟨hlt, by rw [cutFrom, if_pos hlt]; rfl⟩
      · exact ih hp
    · cases hp

/-- A piece holds a sample, and says whether a vector ends where it does. -/
theorem spec_of_mem_cutFrom {most : Nat} (hm : 0 < most) {ends : List Nat} {count fuel position : Nat} {p : Piece}
    (hp : p ∈ cutFrom most ends count fuel position) : p.start < p.stop ∧ p.endsVector = decide (p.stop ∈ ends) := by
  obtain ⟨hlt, hone⟩ := cutFrom_one_of_mem hp
  obtain ⟨stop, he, hstop, -⟩ := exists_cutFrom_succ hm ends 0 hlt
  rw [hone, List.cons.injEq] at he
  obtain ⟨-, rfl, hv⟩ := Piece.mk.inj he.1
  exact ⟨hstop, hv⟩

/-- Where neither a vector nor the transmission ends, the piece is full. -/
theorem full_of_mem_cutFrom {most : Nat} {ends : List Nat} {count fuel position : Nat} {p : Piece}
    (hp : p ∈ cutFrom most ends count fuel position) (hends : p.stop ∉ ends) (hcount : p.stop ≠ count) :
    p.stop = p.start + most := by
  obtain ⟨hlt, hone⟩ := cutFrom_one_of_mem hp
  rw [cutFrom, if_pos hlt, List.cons.injEq] at hone
  obtain ⟨-, hstop, -⟩ := Piece.mk.inj hone.1
  cases hn : nextEnd ends count p.start with
  | none =>
    rw [hn, Option.getD_none] at hstop
    omega
  | some e =>
    have he := (nextEnd_eq_some_iff.1 hn).1.1
    have hne : p.stop ≠ e := by
      rintro rfl
      exact hends he
    rw [hn, Option.getD_some] at hstop
    omega

theorem nonempty_of_mem_cutFrom {most : Nat} (hm : 0 < most) (ends : List Nat) (count : Nat) {fuel position : Nat}
    {p : Piece} (hp : p ∈ cutFrom most ends count fuel position) : p.start < p.stop :=
  (spec_of_mem_cutFrom hm hp).1

/-- The pieces of a transmission lie side by side over all its samples. -/
theorem tiles_cut {most : Nat} (hm : 0 < most) (ends : List Nat) (count : Nat) :
    Tiles most 0 (cut most ends count) count :=
  tiles_cutFrom hm ends count (Nat.zero_le _) (Nat.sub_le _ _)

/-- Where vectors end among some pieces. -/
def vectorEnds (ps : List Piece) : List Nat := (ps.filter (·.endsVector)).map (·.stop)

theorem vectorEnds_cutFrom {most : Nat} (hm : 0 < most) (ends : List Nat) (count : Nat) {fuel position : Nat}
    (hf : count - position ≤ fuel) :
    vectorEnds (cutFrom most ends count fuel position) =
      (List.range' (position + 1) (count - position)).filter (· ∈ ends) := by
  induction fuel generalizing position with
  | zero => simp [cutFrom, vectorEnds, show count - position = 0 by omega]
  | succ fuel ih =>
    by_cases hlt : position < count
    · obtain ⟨stop, he, h₁, -, h₃, hnone⟩ := exists_cutFrom_succ hm ends fuel hlt
      -- the positions up to the end of the piece, of which at most the last one counts
      have hcut : List.range' (position + 1) (count - position) =
          List.range' (position + 1) (stop - position - 1) ++ stop :: List.range' (stop + 1) (count - stop) := by
        obtain ⟨k, rfl⟩ : ∃ k, stop = position + 1 + k := ⟨stop - (position + 1), by omega⟩
        rw [← List.range'_succ, show position + 1 + k - position - 1 = k by omega, List.range'_append_1]
        congr 1
        omega
      have hfirst : (List.range' (position + 1) (stop - position - 1)).filter (· ∈ ends) = [] := by
        rw [List.filter_eq_nil_iff]
        intro x hx hmem
        have hx := List.mem_range'_1.1 hx
        have := hnone x (of_decide_eq_true hmem) (by omega)
        omega
      have hrest : vectorEnds (cutFrom most ends count fuel stop) = _ := ih (by omega)
      rw [vectorEnds] at hrest
      rw [he, hcut, List.filter_append, hfirst, List.nil_append, List.filter_cons, ← hrest, vectorEnds,
        List.filter_cons]
      by_cases hmem : stop ∈ ends <;> simp [hmem]
    · rw [cutFrom, if_neg hlt]
      simp [vectorEnds, show count - position = 0 by omega]

/-- The vectors of a transmission end at the positions given, each once and in
order. -/
theorem vectorEnds_cut {most : Nat} (hm : 0 < most) (ends : List Nat) (count : Nat) :
    vectorEnds (cut most ends count) = (List.range' 1 count).filter (· ∈ ends) :=
  vectorEnds_cutFrom hm ends count (Nat.sub_le _ _)

/-- A transmission is cut where packets are full, at every end of a vector, and nowhere
else. -/
structure Exact (most : Nat) (ends : List Nat) (count : Nat) (ps : List Piece) : Prop where
  tiles : Tiles most 0 ps count
  size : ∀ p ∈ ps, 1 ≤ p.stop - p.start ∧ p.stop - p.start ≤ most
  cut : ∀ x ∈ ends, 0 < x → x ≤ count → ∃ p ∈ ps, p.stop = x
  marked : ∀ p ∈ ps, p.endsVector = true ↔ p.stop ∈ ends
  full : ∀ p ∈ ps, p.stop ∉ ends → p.stop ≠ count → p.stop - p.start = most

theorem exact_cut {most : Nat} (hm : 0 < most) (ends : List Nat) (count : Nat) :
    Exact most ends count (Piece.cut most ends count) where
  tiles := tiles_cut hm ends count
  size p hp := by
    have := (spec_of_mem_cutFrom hm hp).1
    exact ⟨by omega, (tiles_cut hm ends count).length_le hp⟩
  cut x hx hpos hle := by
    have hmem : x ∈ vectorEnds (Piece.cut most ends count) := by
      rw [vectorEnds_cut hm, List.mem_filter, List.mem_range'_1]
      exact ⟨by omega, decide_eq_true hx⟩
    obtain ⟨p, hp, rfl⟩ := List.mem_map.1 hmem
    exact ⟨p, List.mem_of_mem_filter hp, rfl⟩
  marked p hp := by rw [(spec_of_mem_cutFrom hm hp).2, decide_eq_true_iff]
  full p hp hends hcount := by
    have := full_of_mem_cutFrom hp hends hcount
    omega

/-- Only the first of the pieces starts where they start. -/
theorem Tiles.start_eq_iff {most a b j : Nat} {ps : List Piece} {p : Piece} (h : Tiles most a ps b)
    (hpos : ∀ p ∈ ps, p.start < p.stop) (hj : ps[j]? = some p) : p.start = a ↔ j = 0 := by
  cases ps with
  | nil => cases hj
  | cons q ps =>
    obtain ⟨rfl, -, -, hr⟩ := h
    cases j with
    | zero =>
      cases hj
      exact ⟨fun _ => rfl, fun _ => rfl⟩
    | succ j =>
      obtain ⟨before, after, he⟩ := List.append_of_mem (List.mem_of_getElem? (show ps[j]? = some p from hj))
      have hle := (he ▸ hr).before.1.le
      have := hpos q List.mem_cons_self
      exact ⟨fun h => by omega, fun h => by cases h⟩

/-- Only the last of them stops where they stop. -/
theorem Tiles.stop_eq_iff {most a b j : Nat} {ps : List Piece} {p : Piece} (h : Tiles most a ps b)
    (hpos : ∀ p ∈ ps, p.start < p.stop) (hj : ps[j]? = some p) : p.stop = b ↔ j + 1 = ps.length := by
  induction ps generalizing a j with
  | nil => cases hj
  | cons q ps ih =>
    obtain ⟨rfl, -, -, hr⟩ := h
    obtain ⟨-, hps⟩ := List.forall_mem_cons.1 hpos
    cases j with
    | zero =>
      cases hj
      constructor
      · intro hb
        by_contra hne
        exact hr.ne_stop (fun hn => hne (by rw [hn]; rfl)) hps hb
      · intro hl
        rw [List.length_cons] at hl
        rwa [List.eq_nil_of_length_eq_zero (by omega : ps.length = 0)] at hr
    | succ j => rw [ih hr hps hj, List.length_cons, Nat.add_right_cancel_iff]

end RadioStream.Piece
