/-!
# Cutting a text at a separator

`split` gives every piece between separators, empty ones included; `cut` gives
what stands before the first separator and what stands after it.
-/

namespace RadioStream.Text

/-- The pieces between separators; a text without one is a single piece. -/
def split (sep : Char) : List Char → List (List Char)
  | [] => [[]]
  | c :: cs =>
    if c = sep then [] :: split sep cs
    else match split sep cs with
      | [] => [[c]]
      | piece :: pieces => (c :: piece) :: pieces

/-- The text before the first separator and the text after it, if there is a
separator. -/
def cut (sep : Char) : List Char → Option (List Char × List Char)
  | [] => none
  | c :: cs =>
    if c = sep then some ([], cs)
    else (cut sep cs).map fun (before, after) => (c :: before, after)

theorem split_ne_nil (sep : Char) (cs : List Char) : split sep cs ≠ [] := by
  cases cs with
  | nil => simp [split]
  | cons c cs =>
    simp only [split]
    split
    · simp
    · split <;> simp

/-- Joining two texts with a separator joins their pieces. -/
theorem split_append (sep : Char) (s t : List Char) :
    split sep (s ++ sep :: t) = split sep s ++ split sep t := by
  induction s with
  | nil => simp [split]
  | cons c cs ih =>
    simp only [List.cons_append, split]
    split
    · simp [ih]
    · rw [ih]
      cases h : split sep cs with
      | nil => exact absurd h (split_ne_nil sep cs)
      | cons piece pieces => rfl

end RadioStream.Text
