/-!
# Tables of values

What a document holds: a table of named values, some of which are tables
themselves. How a table came about decides what may still be put into it, and a
name is given a value once.
-/

namespace RadioStream.Toml

/-- How a table came about. -/
inductive Origin where
  /-- Written as a value, and complete. -/
  | inline
  /-- Opened by a header. -/
  | header
  /-- Named by the header of a table within it. -/
  | implied
  /-- Named by a dotted key. -/
  | dotted
deriving DecidableEq, Repr

/-- A value of a document. -/
inductive Node where
  | string (s : String)
  | integer (n : Int)
  | float (x : Float)
  | boolean (b : Bool)
  /-- A date, a time or both. -/
  | moment (text : String)
  | array (items : List Node)
  | table (origin : Origin) (entries : List (String × Node))
  /-- An array of tables, each opened by a header. -/
  | tables (items : List (List (String × Node)))

/-- The named values of a table. -/
abbrev Entries := List (String × Node)

namespace Entries

/-- Gives a name another value, worked out from the one it has. -/
def alter (key : String) (f : Option Node → Option Node) : Entries → Option Entries
  | [] => (f none).map fun n => [(key, n)]
  | (k, n) :: rest =>
    if k = key then (f (some n)).map fun n => (k, n) :: rest
    else (alter key f rest).map ((k, n) :: ·)

/-- Gives a new name its value. -/
def insert (key : String) (n : Node) : Entries → Option Entries :=
  alter key fun
    | none => some n
    | some _ => none

/-- Changes the last of several tables. -/
def onLast (f : Entries → Option Entries) : List Entries → Option (List Entries)
  | [] => none
  | [es] => (f es).map ([·])
  | es :: rest => (onLast f rest).map (es :: ·)

/-- Gives a new name its value in the table that a dotted key names. The table
itself must have come about by dotted keys only; on the way to it no table may
be opened by a header or be complete. -/
def insertAt : List String → String → Node → Entries → Option Entries
  | [], key, n, es => insert key n es
  | name :: path, key, n, es => alter name (fun
    | none => (insertAt path key n []).map (.table .dotted)
    | some (.table .dotted sub) => (insertAt path key n sub).map (.table .dotted)
    | some (.table .implied sub) =>
      if path.isEmpty then none else (insertAt path key n sub).map (.table .implied)
    | some (.tables items) =>
      if path.isEmpty then none else (onLast (insertAt path key n) items).map .tables
    | some _ => none) es

/-- Changes the table that the path of a header names. A table that is complete
cannot be on the way, and of an array of tables the last one is meant. -/
def changeAt (f : Entries → Option Entries) : List String → Entries → Option Entries
  | [], es => f es
  | name :: path, es => alter name (fun
    | none => (changeAt f path []).map (.table .implied)
    | some (.table .inline _) => none
    | some (.table origin sub) => (changeAt f path sub).map (.table origin)
    | some (.tables items) => (onLast (changeAt f path) items).map .tables
    | some _ => none) es

/-- Opens a table, which may only have been implied before. -/
def openTable (key : String) (fill : Entries → Option Entries) : Entries → Option Entries :=
  alter key fun
    | none => (fill []).map (.table .header)
    | some (.table .implied es) => (fill es).map (.table .header)
    | some _ => none

/-- Opens the next table of an array of tables. -/
def openNext (key : String) (fill : Entries → Option Entries) : Entries → Option Entries :=
  alter key fun
    | none => (fill []).map fun es => .tables [es]
    | some (.tables items) => (fill []).map fun es => .tables (items ++ [es])
    | some _ => none

end Entries

end RadioStream.Toml
