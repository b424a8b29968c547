import RadioStream.Toml.Reader
/-!
# Blanks, comments and lines

What stands between the parts of a document: spaces and tabs, comments, and line
ends of one character or two.
-/

namespace RadioStream.Toml

open Reader

/-- A space or a tab. -/
def isBlank (c : Char) : Bool := c == ' ' || c == '\t'

/-- A character that may stand in a line: all but the control characters, of
which the tab may. -/
def isInline (c : Char) : Bool := c == '\t' || (0x20 ≤ c.toNat && c.toNat != 0x7f)

/-- Takes spaces and tabs. -/
def blanks : Reader Unit := do
  let _ ← run isBlank

/-- Takes a line end, if there is one. -/
def newline? : Reader Bool := do
  if ← skip? ['\n'] then return true
  skip? ['\r', '\n']

/-- Takes a comment, if there is one. -/
def comment? : Reader Bool := do
  if ← skip? ['#'] then
    let _ ← run isInline
    return true
  return false

/-- Takes the rest of a line that holds nothing more. -/
def lineEnd : Reader Unit := do
  blanks
  let _ ← comment?
  unless ← newline? do
    if (← peek?).isSome then failure

/-- Takes everything up to the next thing that means something. -/
def space : Reader Unit := do
  let _ ← many do
    blanks
    if ← comment? then return some ()
    if ← newline? then return some ()
    return none

end RadioStream.Toml
