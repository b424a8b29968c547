import RadioStream.Toml.Value
/-!
# Documents

A document is a sequence of pairs and headers. The pairs up to the first header
belong to the document itself, the others to the table that the header before
them opens.
-/

namespace RadioStream.Toml

open Reader

/-- Opens a table, or the next table of an array of tables. -/
structure Header where
  path : List String
  key : String
  /-- Whether the table is one of an array. -/
  isItem : Bool

/-- A line of a document that means something. -/
inductive Line where
  | pair (p : Pair)
  | header (h : Header)

/-- A header and the end of its line. -/
def header : Reader Header := do
  let isItem ← skip? ['[', '[']
  unless isItem do skip ['[']
  let (path, key) ← key
  skip (if isItem then [']', ']'] else [']'])
  lineEnd
  return { path, key, isItem }

/-- The lines of a document. A mark of the byte order may stand in front. -/
def lines : Reader (List Line) := do
  let _ ← skip? ['\ufeff']
  many do
    space
    match ← peek? with
    | none => return none
    | some '[' => return some (.header (← header))
    | some _ =>
      let p ← pair (value (depthLimit - 1))
      lineEnd
      return some (.pair p)

/-- The pairs in front of the first header, and each header with the pairs after
it. -/
def blocks : List Line → List Pair × List (Header × List Pair)
  | [] => ([], [])
  | .pair p :: rest => let (ps, bs) := blocks rest; (p :: ps, bs)
  | .header h :: rest => let (ps, bs) := blocks rest; ([], (h, ps) :: bs)

/-- Puts the pairs after a header where they belong. -/
def place (es : Entries) : Header × List Pair → Option Entries
  | (h, ps) =>
    let opened := if h.isItem then Entries.openNext h.key (fill ps)
      else Entries.openTable h.key (fill ps)
    es.changeAt opened h.path

/-- The table that lines make. -/
def ofLines (ls : List Line) : Option Entries := do
  let (top, rest) := blocks ls
  rest.foldlM place (← fill top [])

/-- Reads a document. -/
def document? (text : String) : Option Entries := (whole? lines text).bind ofLines

end RadioStream.Toml
