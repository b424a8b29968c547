import Mathlib.Data.List.DropRight
import RadioStream.Text.Blank
import RadioStream.Text.Token
/-!
# The pieces of a text

What `split`, `cut` and `trim` leave of a text, and which texts they leave as they are.
Pieces without the separator, joined by it, come apart into the same pieces. A text is its
own trimming if it neither starts nor ends with a blank.
-/

namespace RadioStream.Text

variable {sep : Char} {cs piece before after : List Char}

/-! ## Splitting -/

/-- A text without a separator is a single piece. -/
theorem split_of_not_mem (h : sep ∉ cs) : split sep cs = [cs] := by
  induction cs with
  | nil => rfl
  | cons c cs ih =>
    rw [List.mem_cons, not_or] at h
    rw [split, if_neg (Ne.symm h.1), ih h.2]

/-- No piece has a separator in it. -/
theorem not_mem_of_mem_split (h : piece ∈ split sep cs) : sep ∉ piece := by
  induction cs generalizing piece with
  | nil => simp_all [split]
  | cons c cs ih =>
    rw [split] at h
    split at h
    next =>
      rcases List.mem_cons.1 h with rfl | h
      · exact List.not_mem_nil
      · exact ih h
    next hc =>
      obtain ⟨first, pieces, hps⟩ := List.exists_cons_of_ne_nil (split_ne_nil sep cs)
      rw [hps] at h ih
      rcases List.mem_cons.1 h with rfl | h
      · simpa [Ne.symm hc] using ih List.mem_cons_self
      · exact ih (List.mem_cons_of_mem first h)

/-- Pieces joined by separators come apart as they were. -/
theorem split_intercalate {pieces : List (List Char)} (hne : pieces ≠ [])
    (h : ∀ piece ∈ pieces, sep ∉ piece) : split sep ([sep].intercalate pieces) = pieces := by
  induction pieces with
  | nil => exact absurd rfl hne
  | cons piece pieces ih =>
    have hpiece := h piece List.mem_cons_self
    cases pieces with
    | nil => rw [List.intercalate_singleton, split_of_not_mem hpiece]
    | cons next pieces =>
      rw [List.intercalate_cons_cons, List.append_assoc, List.singleton_append, split_append,
        split_of_not_mem hpiece, ih (List.cons_ne_nil next pieces) fun p hp => h p (List.mem_cons_of_mem piece hp),
        List.singleton_append]

/-! ## Cutting -/

theorem cut_eq_none_iff : cut sep cs = none ↔ sep ∉ cs := by
  induction cs with
  | nil => simp [cut]
  | cons c cs ih =>
    rw [cut]
    split
    next hc => simp [hc]
    next hc => simp [ih, Ne.symm hc]

/-- A text is cut at its first separator. -/
theorem cut_eq_some_iff : cut sep cs = some (before, after) ↔ sep ∉ before ∧ cs = before ++ sep :: after := by
  induction cs generalizing before with
  | nil => simp [cut]
  | cons c cs ih =>
    rw [cut]
    split
    next hc =>
      subst hc
      cases before with
      | nil => simp [eq_comm]
      | cons b before => simp; grind
    next hc =>
      cases before with
      | nil => simp [hc]
      | cons b before => simp; grind

/-! ## Trimming -/

@[simp] theorem trim_nil : trim [] = [] := rfl

theorem isBlank_of_head?_trimLeft {c : Char} (h : (trimLeft cs).head? = some c) : isBlank c = false := by
  have hnot := List.head?_dropWhile_not isBlank cs
  rw [trimLeft] at h
  rwa [h] at hnot

theorem isBlank_of_getLast?_trimRight {c : Char} (h : (trimRight cs).getLast? = some c) : isBlank c = false := by
  rw [trimRight, List.getLast?_reverse] at h
  exact isBlank_of_head?_trimLeft h

/-- What is trimmed on the right is the front of the text. -/
theorem trimRight_front (cs : List Char) : ∃ rest, trimRight cs ++ rest = cs :=
  List.rdropWhile_prefix isBlank cs

theorem mem_of_mem_trim {c : Char} (h : c ∈ trim cs) : c ∈ cs := by
  obtain ⟨rest, hrest⟩ := trimRight_front (trimLeft cs)
  have hleft : c ∈ trimLeft cs := hrest ▸ List.mem_append_left rest h
  exact (List.dropWhile_sublist isBlank).mem hleft

theorem isBlank_of_head?_trim {c : Char} (h : (trim cs).head? = some c) : isBlank c = false := by
  obtain ⟨rest, hrest⟩ := trimRight_front (trimLeft cs)
  have hhead : (trimLeft cs).head? = some c := by
    rw [← hrest, List.head?_append]
    exact Option.or_eq_some_iff.2 (.inl h)
  exact isBlank_of_head?_trimLeft hhead

theorem trimLeft_eq_self (h : ∀ c, cs.head? = some c → isBlank c = false) : trimLeft cs = cs := by
  cases cs with
  | nil => rfl
  | cons c cs => exact List.dropWhile_cons_of_neg (by simp [h c rfl])

theorem trimRight_eq_self (h : ∀ c, cs.getLast? = some c → isBlank c = false) : trimRight cs = cs := by
  have hrev : trimLeft cs.reverse = cs.reverse := trimLeft_eq_self fun c hc => h c (List.head?_reverse ▸ hc)
  exact (congrArg List.reverse hrev).trans (List.reverse_reverse cs)

/-- A text is its own trimming exactly if it neither starts nor ends with a blank. -/
theorem trim_eq_self_iff :
    trim cs = cs ↔ (∀ c, cs.head? = some c → isBlank c = false) ∧ ∀ c, cs.getLast? = some c → isBlank c = false := by
  constructor
  · intro h
    constructor
    · intro c hc
      rw [← h] at hc
      exact isBlank_of_head?_trim hc
    · intro c hc
      rw [← h] at hc
      exact isBlank_of_getLast?_trimRight hc
  · rintro ⟨hhead, hlast⟩
    rw [trim, trimLeft_eq_self hhead, trimRight_eq_self hlast]

/-- What is trimmed stays as it is. -/
@[simp] theorem trim_trim (cs : List Char) : trim (trim cs) = trim cs :=
  trim_eq_self_iff.2 ⟨fun _ => isBlank_of_head?_trim, fun _ => isBlank_of_getLast?_trimRight⟩

theorem not_mem_trim (h : sep ∉ cs) : sep ∉ trim cs := fun hsep => h (mem_of_mem_trim hsep)

/-- Two trimmed texts with a character between them that is not blank are a trimmed text. -/
theorem trim_append_cons {c : Char} (hc : isBlank c = false) (hbefore : trim before = before)
    (hafter : trim after = after) : trim (before ++ c :: after) = before ++ c :: after := by
  rw [trim_eq_self_iff] at hbefore hafter ⊢
  constructor
  · intro d hd
    cases before with
    | nil =>
      cases hd
      exact hc
    | cons b before => exact hbefore.1 d hd
  · intro d hd
    rw [List.getLast?_append, List.getLast?_cons] at hd
    cases hlast : after.getLast? with
    | none =>
      rw [hlast] at hd
      cases hd
      exact hc
    | some e =>
      rw [hlast] at hd
      cases hd
      exact hafter.2 e hlast

end RadioStream.Text
