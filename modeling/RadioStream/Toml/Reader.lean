/-!
# Readers

A reader takes something off the front of a text or refuses the text. Every
refusal is the same: a document with a fault anywhere is no document.
-/

namespace RadioStream.Toml

/-- Takes something off the front of a text. -/
abbrev Reader := StateT (List Char) Option

namespace Reader

variable {α : Type}

/-- The next character, left where it is. -/
def peek? : Reader (Option Char) := fun cs => some (cs.head?, cs)

/-- A character of a class. -/
def oneOf (p : Char → Bool) : Reader Char
  | [] => none
  | c :: cs => if p c then some (c, cs) else none

/-- The longest run of characters of a class. -/
def run (p : Char → Bool) : Reader (List Char) := fun cs => some (cs.span p)

/-- Whether the text goes on with some characters, left where they are. -/
def sees (word : List Char) : Reader Bool := fun cs => some (word.isPrefixOf cs, cs)

/-- Takes some characters, if the text goes on with them. -/
def skip? (word : List Char) : Reader Bool := fun cs =>
  if word.isPrefixOf cs then some (true, cs.drop word.length) else some (false, cs)

/-- Takes some characters, which must be there. -/
def skip (word : List Char) : Reader Unit := do
  unless ← skip? word do failure

/-- Reads on until a reader has nothing more to give. What it gives must take up
something of the text. -/
def many (step : Reader (Option α)) : Reader (List α) := fun cs =>
  match step cs with
  | none => none
  | some (none, rest) => some ([], rest)
  | some (some a, rest) =>
    if rest.length < cs.length then (many step rest).map fun (as, rest) => (a :: as, rest)
    else none
termination_by cs => cs.length

/-- Reads a whole text. -/
def whole? (r : Reader α) (text : String) : Option α :=
  match r text.toList with
  | some (a, []) => some a
  | _ => none

end Reader

end RadioStream.Toml
