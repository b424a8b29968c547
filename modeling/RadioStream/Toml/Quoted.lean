import RadioStream.Toml.Layout
/-!
# Quoted text

Text stands between quotes: double ones, where a backslash starts an escape, or
single ones, where every character is itself. Three quotes hold text of several
lines; up to two more of them at the end belong to the text.
-/

namespace RadioStream.Toml.Quoted

open Reader

/-- Sixteen different digits. -/
def isHexDigit (c : Char) : Bool :=
  c.isDigit || ('a' ≤ c && c ≤ 'f') || ('A' ≤ c && c ≤ 'F')

/-- The value of a digit. -/
def digitValue (c : Char) : Nat :=
  if c.isDigit then c.toNat - '0'.toNat
  else if 'a' ≤ c then c.toNat - 'a'.toNat + 10
  else c.toNat - 'A'.toNat + 10

/-- The number that digits write in a base. -/
def valueIn (base : Nat) (ds : List Char) : Nat :=
  ds.foldl (fun n d => base * n + digitValue d) 0

/-- A character by its number, of the given count of digits. -/
def numbered (digits : Nat) : Reader Char := fun cs =>
  let ds := cs.take digits
  let n := valueIn 16 ds
  if ds.length = digits && ds.all isHexDigit && decide (n.isValidChar) then
    some (Char.ofNat n, cs.drop digits)
  else none

/-- What follows the backslash of an escape. -/
def escaped : Reader Char := do
  match ← oneOf fun _ => true with
  | 'b' => return '\x08'
  | 't' => return '\t'
  | 'n' => return '\n'
  | 'f' => return '\x0c'
  | 'r' => return '\r'
  | '"' => return '"'
  | '\\' => return '\\'
  | 'u' => numbered 4
  | 'U' => numbered 8
  | _ => failure

/-! ## One line -/

/-- Text between double quotes. -/
def basic : Reader String := do
  skip ['"']
  let cs ← many do
    match ← peek? with
    | some '"' => return none
    | some '\\' => skip ['\\']; return some (← escaped)
    | _ => return some (← oneOf isInline)
  skip ['"']
  return String.ofList cs

/-- Text between single quotes. -/
def plain : Reader String := do
  skip ['\'']
  let cs ← run fun c => isInline c && c != '\''
  skip ['\'']
  return String.ofList cs

/-! ## Several lines -/

/-- Three quotes. -/
def fence (quote : Char) : List Char := [quote, quote, quote]

/-- Takes three quotes that end a text, and gives those before them, two at most,
that belong to it. -/
def close (quote : Char) : Reader (List Char) := fun cs =>
  let quotes := (cs.takeWhile (· == quote)).length
  if quotes < 3 then none
  else
    let inside := min (quotes - 3) 2
    some (List.replicate inside quote, cs.drop (inside + 3))

/-- Takes a backslash at the end of a line and all blanks and line ends up to the
next character, if the text goes on so. -/
def joined? : Reader Bool := fun cs =>
  match cs with
  | '\\' :: rest => match (do blanks; newline?) rest with
    | some (true, rest) => some (true, rest.dropWhile isBlank)
    | _ => some (false, cs)
  | _ => some (false, cs)

/-- Takes a line end within a text and the blanks of the line after it. -/
def restOfJoin : Reader Unit := do
  let _ ← many do
    if ← newline? then
      blanks
      return some ()
    return none

/-- A piece of a text of several lines between double quotes. -/
def basicPiece : Reader (Option (List Char)) := do
  if ← sees (fence '"') then return none
  if ← joined? then
    restOfJoin
    return some []
  if ← newline? then return some ['\n']
  if ← skip? ['\\'] then return some [← escaped]
  return some [← oneOf isInline]

/-- A piece of a text of several lines between single quotes. -/
def plainPiece : Reader (Option (List Char)) := do
  if ← sees (fence '\'') then return none
  if ← newline? then return some ['\n']
  return some [← oneOf isInline]

/-- Text of several lines, made of pieces. A line end right after the quotes is
not part of it. -/
def lines (quote : Char) (piece : Reader (Option (List Char))) : Reader String := do
  skip (fence quote)
  let _ ← newline?
  let pieces ← many piece
  let last ← close quote
  return String.ofList (pieces.flatten ++ last)

/-- Any quoted text. -/
def text : Reader String := do
  if ← sees (fence '"') then lines '"' basicPiece
  else if ← sees (fence '\'') then lines '\'' plainPiece
  else if ← sees ['"'] then basic
  else plain

end RadioStream.Toml.Quoted
