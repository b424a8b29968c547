import RadioStream.Toml.Moment
/-!
# Keys and values

A key is one name or several joined by dots; a value is a single thing, an array,
or a table written in one line.
-/

namespace RadioStream.Toml

open Reader

/-- A value and where it belongs: the names before the last dot of its key, and
the last name. -/
structure Pair where
  path : List String
  key : String
  node : Node

/-- A character of a name without quotes. -/
def isBare (c : Char) : Bool := c.isAlphanum || c == '-' || c == '_'

/-- One name of a key. -/
def name : Reader String := do
  match ← peek? with
  | some '"' => Quoted.basic
  | some '\'' => Quoted.plain
  | _ =>
    let c ← oneOf isBare
    let cs ← run isBare
    return String.ofList (c :: cs)

/-- Names a key may have, and arrays and tables that values may nest, are fewer
than this. -/
def depthLimit : Nat := 80

/-- A key: the names before the last dot, and the last name. -/
def key : Reader (List String × String) := do
  blanks
  let first ← name
  blanks
  let more ← many do
    if ← skip? ['.'] then
      blanks
      let n ← name
      blanks
      return some n
    return none
  let names := first :: more
  if depthLimit ≤ names.length then failure
  return (names.dropLast, names.getLastD first)

/-- A key, and the value that a reader finds after it. -/
def pair (value : Reader Node) : Reader Pair := do
  let (path, key) ← key
  skip ['=']
  blanks
  let node ← value
  return { path, key, node }

/-- The table that pairs make, in addition to what it has. -/
def fill (pairs : List Pair) (es : Entries) : Option Entries :=
  pairs.foldlM (fun es p => Entries.insertAt p.path p.key p.node es) es

/-- A value that holds no other. -/
def scalar : Reader Node := do
  match ← peek? with
  | some '"' | some '\'' => return .string (← Quoted.text)
  | some 't' => skip ['t', 'r', 'u', 'e']; return .boolean true
  | some 'f' => skip ['f', 'a', 'l', 's', 'e']; return .boolean false
  | _ => match ← optional Moment.moment with
    | some m => return m
    | none => Number.number

/-- Values between brackets. Lines may end between them, and a comma may follow
the last. -/
def array (value : Reader Node) : Reader Node := do
  skip ['[']
  let items ← many do
    space
    if ← sees [']'] then return none
    let item ← value
    space
    unless ← skip? [','] do
      unless ← sees [']'] do failure
    return some item
  skip [']']
  return .array items

/-- Pairs between braces, in one line. -/
def inlineTable (value : Reader Node) : Reader Node := do
  skip ['\x7b']
  blanks
  if ← skip? ['\x7d'] then return .table .inline []
  let first ← pair value
  blanks
  let more ← many do
    if ← skip? [','] then
      let p ← pair value
      blanks
      return some p
    return none
  skip ['\x7d']
  let entries ← StateT.lift (fill (first :: more) [])
  return .table .inline entries

/-- A value with arrays and tables nested up to a depth. -/
def value : Nat → Reader Node
  | 0 => scalar
  | depth + 1 => do
    match ← peek? with
    | some '[' => array (value depth)
    | some '\x7b' => inlineTable (value depth)
    | _ => scalar

end RadioStream.Toml
