import RadioStream.Toml.Number
/-!
# Dates and times

A date, a time of day, or a date with a time of day and perhaps the distance of
its zone from world time. Only days of the calendar are dates.
-/

namespace RadioStream.Toml.Moment

open Reader

/-- A number of exactly so many digits, within limits. -/
def part (count low high : Nat) : Reader Nat := fun cs =>
  let ds := cs.take count
  let n := Decimal.digitsValue ds
  if ds.length = count && ds.all Char.isDigit && low ≤ n && n ≤ high then some (n, cs.drop count)
  else none

/-- The last day of a month. -/
def lastDay (year month : Nat) : Nat :=
  if month = 2 then if year % 4 = 0 && (year % 100 ≠ 0 || year % 400 = 0) then 29 else 28
  else if month = 4 || month = 6 || month = 9 || month = 11 then 30
  else 31

/-- A number with zeros in front up to a width. -/
def padded (width n : Nat) : String :=
  let digits := Nat.toDigits 10 n
  String.ofList (List.replicate (width - digits.length) '0' ++ digits)

/-- A date, as it is written. -/
def date : Reader String := do
  let year ← part 4 0 9999
  skip ['-']
  let month ← part 2 1 12
  skip ['-']
  let day ← part 2 1 31
  if lastDay year month < day then failure
  return padded 4 year ++ "-" ++ padded 2 month ++ "-" ++ padded 2 day

/-- The fraction of a second, to nine digits and without zeros at the end. -/
def fraction (ds : List Char) : String :=
  let ds := ((ds.take 9).reverse.dropWhile (· == '0')).reverse
  if ds.isEmpty then "" else "." ++ String.ofList ds

/-- A time of day, as it is written. -/
def timeOfDay : Reader String := do
  let hour ← part 2 0 23
  skip [':']
  let minute ← part 2 0 59
  skip [':']
  let second ← part 2 0 60
  let tail ← if ← skip? ['.'] then
      let d ← oneOf Char.isDigit
      let ds ← run Char.isDigit
      pure (fraction (d :: ds))
    else pure ""
  return padded 2 hour ++ ":" ++ padded 2 minute ++ ":" ++ padded 2 second ++ tail

/-- The distance of a zone, as it is written; no distance has no sign but the
plus. -/
def zone : Reader String := do
  if ← skip? ['Z'] then return "Z"
  if ← skip? ['z'] then return "Z"
  let sign ← oneOf fun c => c == '+' || c == '-'
  let hours ← part 2 0 23
  skip [':']
  let minutes ← part 2 0 59
  let sign := if sign == '-' && hours + minutes != 0 then "-" else "+"
  return sign ++ padded 2 hours ++ ":" ++ padded 2 minutes

/-- The time of day and the zone after a date. -/
def rest : Reader String := do
  let _ ← oneOf fun c => c == 'T' || c == 't' || c == ' '
  let time ← timeOfDay
  match ← peek? with
  | some c =>
    if c == 'Z' || c == 'z' || c == '+' || c == '-' then return "T" ++ time ++ (← zone)
    else return "T" ++ time
  | none => return "T" ++ time

/-- A date, a time or both, as it is written. -/
def moment : Reader Node := do
  match ← optional date with
  | none => return .moment (← timeOfDay)
  | some d => return .moment (d ++ (← optional rest).getD "")

end RadioStream.Toml.Moment
