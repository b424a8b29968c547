import RadioStream.Decimal.Binary64
/-!
# Reading numbers

Whole numbers of a machine word and doubles, from a text that holds nothing
else. A sign may stand in front, of a whole number only the plus. A double is
the one nearest to the decimal that is written.
-/

namespace RadioStream.Decimal

/-- The ASCII digits a text starts with, and the rest of it. -/
def digitRun (cs : List Char) : List Char × List Char := cs.span Char.isDigit

/-- The number that a run of ASCII digits writes. -/
def digitsValue (ds : List Char) : Nat :=
  ds.foldl (fun acc d => 10 * acc + (d.toNat - '0'.toNat)) 0

/-- A text without the plus it may start with. -/
def dropPlus : List Char → List Char
  | '+' :: cs => cs
  | cs => cs

/-- A sign in front of a number, and what follows it. -/
def takeSign : List Char → Bool × List Char
  | '-' :: cs => (true, cs)
  | '+' :: cs => (false, cs)
  | cs => (false, cs)

/-- Reads a whole number below `2 ^ 64`. -/
def readWord (s : String) : Option Nat :=
  let digits := dropPlus s.toList
  if digits.isEmpty || !digits.all Char.isDigit then none
  else
    let n := digitsValue digits
    if n < UInt64.size then some n else none

/-- The double nearest to `± m · 10 ^ e`. Exponents so far out that the answer is
zero or infinite are not computed. -/
def ofDecimal (negative : Bool) (m : Nat) (e : Int) : Float :=
  let magnitude := (Nat.toDigits 10 m).length + e
  if m = 0 ∨ magnitude < -330 then nearest negative 0 1
  else if 310 < magnitude then nearest negative (Nat.pow 10 310) 1
  else nearest negative (m * Nat.pow 10 e.toNat) (Nat.pow 10 (-e).toNat)

/-- Reads an exponent: the mark, a sign and at least one digit. No exponent is
zero. -/
def readExponent : List Char → Option Int
  | [] => some 0
  | c :: cs =>
    if c = 'e' ∨ c = 'E' then
      let (negative, digits) := takeSign cs
      if digits.isEmpty || !digits.all Char.isDigit then none
      else
        let n : Int := digitsValue digits
        some (if negative then -n else n)
    else none

/-- Reads digits with an optional point, which needs a digit on one side, and an
optional exponent. -/
def readDecimal (negative : Bool) (cs : List Char) : Option Float :=
  let (whole, rest) := digitRun cs
  let (fraction, rest) := match rest with
    | '.' :: rest => digitRun rest
    | rest => ([], rest)
  if whole.isEmpty && fraction.isEmpty then none
  else (readExponent rest).map fun e =>
    ofDecimal negative (digitsValue (whole ++ fraction)) (e - fraction.length)

/-- Infinity with a sign. -/
def infinity (negative : Bool) : Float :=
  .ofBits (if negative then 0xfff0000000000000 else 0x7ff0000000000000)

/-- What is not a number, with a sign. -/
def notANumber (negative : Bool) : Float :=
  .ofBits (if negative then 0xfff8000000000000 else 0x7ff8000000000000)

/-- Reads a double: a decimal, or an infinity or not-a-number in any case. -/
def readFloat (s : String) : Option Float :=
  let (negative, cs) := takeSign s.toList
  match String.ofList (cs.map Char.toLower) with
  | "inf" | "infinity" => some (infinity negative)
  | "nan" => some (notANumber negative)
  | _ => readDecimal negative cs

end RadioStream.Decimal
