import RadioStream.Text.Blank
import RadioStream.Text.Token
/-!
# Device addresses

An address maps string keys to string values. Its pairs are kept in the order of
the keys, each key once, so two addresses with the same pairs are equal.

The text of an address is its pairs with commas between them, a pair being
`key=value` or, for an empty value, the key alone. `Address.ofText` reads such a
text and `Address.text` writes one.
-/

namespace RadioStream

/-- A device address, in key order. -/
structure Address where
  pairs : List (String × String) := []
  sorted : pairs.Pairwise (fun a b => a.1 < b.1) := by exact .nil

namespace Address

@[ext] theorem ext {a b : Address} (h : a.pairs = b.pairs) : a = b := by
  cases a; cases b; cases h; rfl

instance : DecidableEq Address := fun a b =>
  decidable_of_iff (a.pairs = b.pairs) ⟨ext, fun h => h ▸ rfl⟩

instance : Inhabited Address := ⟨{}⟩

/-- The address without pairs. -/
def empty : Address := {}

/-- The value of a key. -/
def get? (a : Address) (key : String) : Option String :=
  (a.pairs.find? (·.1 == key)).map (·.2)

/-- The value of a key, or another value if the key is absent. -/
def getD (a : Address) (key fallback : String) : String := (a.get? key).getD fallback

/-- Whether the key has a value. -/
def contains (a : Address) (key : String) : Bool := (a.get? key).isSome

/-- The keys, in order. -/
def keys (a : Address) : List String := a.pairs.map (·.1)

/-- Puts a pair in its place among pairs in key order; a pair with the same key
gives way. -/
def insertPair (key value : String) : List (String × String) → List (String × String)
  | [] => [(key, value)]
  | p :: ps =>
    if key < p.1 then (key, value) :: p :: ps
    else if p.1 < key then p :: insertPair key value ps
    else (key, value) :: ps

theorem mem_insertPair {key value : String} {ps : List (String × String)} {p : String × String}
    (h : p ∈ insertPair key value ps) : p = (key, value) ∨ p ∈ ps := by
  induction ps with
  | nil => exact .inl (by simpa [insertPair] using h)
  | cons q qs ih =>
    simp only [insertPair] at h
    split at h
    · simpa using h
    · split at h
      · rcases List.mem_cons.1 h with h | h
        · exact .inr (by simp [h])
        · exact (ih h).imp_right (List.mem_cons_of_mem _)
      · rcases List.mem_cons.1 h with h | h
        · exact .inl h
        · exact .inr (List.mem_cons_of_mem _ h)

theorem sorted_insertPair (key value : String) {ps : List (String × String)}
    (h : ps.Pairwise (fun a b => a.1 < b.1)) :
    (insertPair key value ps).Pairwise (fun a b => a.1 < b.1) := by
  induction ps with
  | nil => simp [insertPair]
  | cons q qs ih =>
    obtain ⟨hq, hqs⟩ := List.pairwise_cons.1 h
    simp only [insertPair]
    split
    next hlt =>
      refine List.pairwise_cons.2 ⟨fun p hp => ?_, h⟩
      rcases List.mem_cons.1 hp with rfl | hp
      · exact hlt
      · exact String.lt_trans hlt (hq p hp)
    next hnlt =>
      split
      next hgt =>
        refine List.pairwise_cons.2 ⟨fun p hp => ?_, ih hqs⟩
        rcases mem_insertPair hp with rfl | hp
        · exact hgt
        · exact hq p hp
      next hngt =>
        have heq : key = q.1 := String.le_antisymm hngt hnlt
        exact List.pairwise_cons.2 ⟨fun p hp => heq ▸ hq p hp, hqs⟩

/-- Creates or replaces a pair. -/
def insert (a : Address) (key value : String) : Address :=
  ⟨insertPair key value a.pairs, sorted_insertPair key value a.sorted⟩

/-- Takes a key out. -/
def erase (a : Address) (key : String) : Address :=
  ⟨a.pairs.filter (·.1 != key), a.sorted.filter _⟩

/-- The address that holds the given pairs, a later one replacing an earlier one
with its key. -/
def ofPairs (ps : List (String × String)) : Address :=
  ps.foldl (fun a p => a.insert p.1 p.2) empty

/-- Adds a pair unless its key is there already. -/
def insertIfNew (a : Address) (key value : String) : Address :=
  if a.contains key then a else a.insert key value

/-- Adds every pair of another address whose key is absent here. -/
def fillFrom (a other : Address) : Address :=
  other.pairs.foldl (fun a p => a.insertIfNew p.1 p.2) a

/-! ## Text -/

/-- The pair that a piece of an address text stands for, if the piece is not
blank. Without an equals sign the whole piece is the key. -/
def pairOfToken (token : List Char) : Option (String × String) :=
  match Text.trim token with
  | [] => none
  | cs => match Text.cut '=' cs with
    | some (key, value) =>
      some (String.ofList (Text.trim key), String.ofList (Text.trim value))
    | none => some (String.ofList cs, "")

/-- Reads pairs with commas between them. -/
def ofText (s : String) : Address :=
  ofPairs ((Text.split ',' s.toList).filterMap pairOfToken)

/-- How one pair is written. -/
def pairText (p : String × String) : String :=
  if p.2.isEmpty then p.1 else p.1 ++ "=" ++ p.2

/-- The pairs in key order with commas between them. -/
def text (a : Address) : String := String.intercalate "," (a.pairs.map pairText)

/-- The text of an address over several lines, one for each pair. -/
def listing (a : Address) : String :=
  if a.pairs.isEmpty then "Empty Device Address"
  else
    "Device Address:\n" ++
      String.join (a.pairs.map fun p => "    " ++ p.1 ++ ": " ++ p.2 ++ "\n")

end Address

end RadioStream
