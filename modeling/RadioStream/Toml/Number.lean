import RadioStream.Decimal.Reader
import RadioStream.Toml.Node
import RadioStream.Toml.Quoted
/-!
# Numbers

Whole numbers of sixty-four bits, in base ten with a sign or in three other bases
without, and doubles. Underscores may stand between digits. A decimal has no
zeros in front.
-/

namespace RadioStream.Toml.Number

open Reader

/-- The digits that follow a digit; an underscore must have one after it. -/
def moreDigits (p : Char → Bool) : List Char → Option (List Char × List Char)
  | [] => some ([], [])
  | '_' :: cs => match cs with
    | d :: cs =>
      if p d then (moreDigits p cs).map fun (ds, rest) => (d :: ds, rest) else none
    | [] => none
  | c :: cs =>
    if p c then (moreDigits p cs).map fun (ds, rest) => (c :: ds, rest)
    else some ([], c :: cs)

/-- One digit or more. -/
def digits (p : Char → Bool) : Reader (List Char) := do
  let d ← oneOf p
  let ds ← moreDigits p
  return d :: ds

/-- The digits of a decimal: a zero, or digits that start with another. -/
def wholeDigits : Reader (List Char) := do
  if ← skip? ['0'] then return ['0']
  digits Char.isDigit

/-- Takes a sign, and whether it is a minus. -/
def sign : Reader Bool := do
  if ← skip? ['-'] then return true
  let _ ← skip? ['+']
  return false

/-- Takes an exponent, if there is one. -/
def exponent? : Reader (Option Int) := do
  match ← peek? with
  | some c =>
    if c = 'e' || c = 'E' then
      let _ ← oneOf fun _ => true
      let negative ← sign
      let n : Int := Decimal.digitsValue (← digits Char.isDigit)
      return some (if negative then -n else n)
    else return none
  | none => return none

/-- A whole number, if sixty-four bits hold it. -/
def integer (n : Int) : Reader Node :=
  if Int64.minValue.toInt ≤ n ∧ n ≤ Int64.maxValue.toInt then return .integer n else failure

/-- A double. Those too large are refused, but not those too small. -/
def float (negative : Bool) (digits : List Char) (exponent : Int) : Reader Node := do
  let x := Decimal.ofDecimal negative (Decimal.digitsValue digits) exponent
  if x.isInf && !negative then failure
  return .float x

/-- A decimal after its sign: a whole number unless a point or an exponent
follows. -/
def decimal (negative : Bool) : Reader Node := do
  let whole ← wholeDigits
  if ← skip? ['.'] then
    let fraction ← digits Char.isDigit
    let e := (← exponent?).getD 0
    float negative (whole ++ fraction) (e - fraction.length)
  else match ← exponent? with
    | some e => float negative whole e
    | none =>
      let n : Int := Decimal.digitsValue whole
      integer (if negative then -n else n)

/-- A whole number in another base, after its mark. -/
def based (base : Nat) (p : Char → Bool) : Reader Node := do
  integer (Quoted.valueIn base (← digits p))

/-- Infinity, or what is not a number, after its sign. -/
def special (negative : Bool) : Reader Node := do
  if ← skip? ['i', 'n', 'f'] then
    return .float (Decimal.infinity negative)
  skip ['n', 'a', 'n']
  return .float (Decimal.notANumber negative)

/-- Any number. -/
def number : Reader Node := do
  if ← skip? ['0', 'x'] then return ← based 16 Quoted.isHexDigit
  if ← skip? ['0', 'o'] then return ← based 8 fun c => '0' ≤ c && c ≤ '7'
  if ← skip? ['0', 'b'] then return ← based 2 fun c => c == '0' || c == '1'
  let negative ← sign
  match ← peek? with
  | some 'i' | some 'n' => special negative
  | _ => decimal negative

end RadioStream.Toml.Number
