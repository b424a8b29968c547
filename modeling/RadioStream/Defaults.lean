import RadioStream.Address.Basic
import RadioStream.Bytes
import RadioStream.Decimal.Shortest
import RadioStream.Error
import RadioStream.Toml.Document
/-!
# Device defaults

A document gives default arguments for devices: a table `defaults` for all of
them, and sections named `key=value` for those whose address has that value of
that key. An address is completed with the arguments of its sections, then with
the defaults for all; what it says itself stays.
-/

namespace RadioStream

open Toml (Node Entries)

/-- Default arguments for the addresses with one value of one key. -/
structure Section where
  key : String
  value : String
  args : Address
deriving DecidableEq

/-- Whether a section is for an address. -/
def Section.isFor (s : Section) (a : Address) : Bool := a.get? s.key == some s.value

/-- Default arguments of devices. -/
structure Defaults where
  /-- For every device. -/
  global : Address := {}
  sections : List Section := []
deriving DecidableEq

namespace Defaults

/-! ## Reading -/

/-- The text of a value that is a single thing. -/
def scalarText? : Node → Option String
  | .string s => some s
  | .integer n => some (toString n)
  | .float x => some (Decimal.text x)
  | .boolean b => some (toString b)
  | .moment _ | .array _ | .table _ _ | .tables _ => none

/-- What a value is. -/
def kindName : Node → String
  | .string _ => "string"
  | .integer _ => "integer"
  | .float _ => "float"
  | .boolean _ => "boolean"
  | .moment _ => "datetime"
  | .array _ | .tables _ => "array"
  | .table _ _ => "table"

/-- The key under which a date or time has its text where a table is asked for. -/
def momentKey : String := "$__toml_private_datetime"

/-- The entries of a value as a table. -/
def entries? : Node → Option Entries
  | .table _ es => some es
  | .moment text => some [(momentKey, .string text)]
  | _ => none

/-- Named things in the order of their names. -/
def inNameOrder {α : Type} (xs : List (String × α)) : List (String × α) :=
  xs.mergeSort fun a b => decide (¬ b.1 < a.1)

/-- The arguments that the entries of a section make. -/
def arguments (section_ : String) (es : Entries) : Except Error Address :=
  (inNameOrder es).foldlM (fun a (key, n) => match scalarText? n with
    | some text => .ok (a.insert key text)
    | none => .error (.defaults (.notScalar section_ key (kindName n)))) .empty

/-- The section of a name and its entries. -/
def sectionOf (name : String) (es : Entries) : Except Error Section :=
  match Text.cut '=' name.toList with
  | none => .error (.defaults (.unnamedSection name))
  | some (key, value) => do
    let args ← arguments name es
    return { key := String.ofList (Text.trim key), value := String.ofList (Text.trim value), args }

/-- The tables of a document. There is nothing else at its top. -/
def tablesOf (text : String) : Except Error (List (String × Entries)) :=
  let tables? := (Toml.document? text).bind fun es =>
    es.mapM fun (name, n) => (entries? n).map (name, ·)
  match tables? with
  | some tables => .ok tables
  | none => .error .document

/-- Reads a document. The sections keep the order of their names. -/
def ofText (text : String) : Except Error Defaults := do
  let tables ← tablesOf text
  let global ← arguments "defaults" ((tables.lookup "defaults").getD [])
  let sections ← (inNameOrder (tables.filter (·.1 != "defaults"))).mapM fun (name, es) =>
    sectionOf name es
  return { global, sections }

/-- Reads the content of a file, if the file can be read. -/
def ofFile (content : Option Bytes) : Except Error Defaults :=
  match content.bind fun bs => String.fromUTF8? (ByteArray.mk bs.toArray) with
  | some text => ofText text
  | none => .error .unreadableFile

/-! ## Applying -/

/-- The address completed with the arguments of its sections and then with those
for all. A section is chosen by what the address says itself. -/
def apply (d : Defaults) (a : Address) : Address :=
  let own := d.sections.filter (·.isFor a)
  (own.foldl (fun out s => out.fillFrom s.args) a).fillFrom d.global

end Defaults

end RadioStream
