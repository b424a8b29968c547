import RadioStream.Decimal.Binary64
/-!
# The shortest decimal that reads back

For a positive double `m · 2 ^ q`, the reals that round to it form an interval
whose ends belong to it when `m` is even. `shortest` tries one, two, … up to
seventeen digits and takes the first decimal grid with a point in the interval;
of two such points the nearer, of two equally near the larger.
-/

namespace RadioStream.Decimal

/-- How many decimal digits a number has; zero has none. -/
def digitCount (n : Nat) : Nat := if n = 0 then 0 else (Nat.toDigits 10 n).length

/-- The numerators, over a common denominator, of a value and of the ends of the
interval around it. -/
structure Interval where
  low : Nat
  value : Nat
  high : Nat
  denominator : Nat
  closed : Bool

/-- The reals that round to `mantissa · 2 ^ exponent`. Just above a power of two
the lower neighbour is half as far away as the upper one. -/
def Interval.around (p : Parts) : Interval :=
  let below := if p.mantissa = Nat.pow 2 52 ∧ p.exponent ≠ -1074 then 1 else 2
  let scale := p.exponent - 2
  let up := Nat.pow 2 scale.toNat
  { low := (4 * p.mantissa - below) * up
    value := 4 * p.mantissa * up
    high := (4 * p.mantissa + 2) * up
    denominator := Nat.pow 2 (-scale).toNat
    closed := p.mantissa % 2 == 0 }

/-- Whether `k / d` lies in the interval. -/
def Interval.contains (i : Interval) (k d : Nat) : Bool :=
  let point := k * i.denominator
  if i.closed then i.low * d ≤ point && point ≤ i.high * d
  else i.low * d < point && point < i.high * d

/-- The whole number `e` with `10 ^ (e - 1) ≤ num / den < 10 ^ e`. -/
def decimalExponent (num den : Nat) : Int :=
  if den ≤ num then digitCount (num / den)
  else 1 - (digitCount ((den - 1) / num) : Int)

/-- A positive decimal `digits · 10 ^ exponent`. -/
structure Scientific where
  digits : Nat
  exponent : Int
deriving Repr, DecidableEq

/-- The point of the grid of step `10 ^ exponent` that lies in the interval, the
nearest one if there are two. -/
def Interval.onGrid? (i : Interval) (exponent : Int) : Option Scientific :=
  let up := Nat.pow 10 (-exponent).toNat
  let down := Nat.pow 10 exponent.toNat
  let num := i.value * up
  let den := i.denominator * down
  let k := num / den
  -- a grid point `k` stands for `k · down / up`
  let inside (k : Nat) := i.contains (k * down) up
  match inside k, inside (k + 1) with
  | true, true => some ⟨if 2 * (num % den) < den then k else k + 1, exponent⟩
  | true, false => some ⟨k, exponent⟩
  | false, true => some ⟨k + 1, exponent⟩
  | false, false => none

/-- The same decimal without the zero that its digits end in, if they do. -/
def Scientific.withoutZero (d : Scientific) : Scientific :=
  if d.digits % 10 = 0 then ⟨d.digits / 10, d.exponent + 1⟩ else d

/-- The shortest decimal in the interval around a positive double. Rounding up to
a power of ten on the coarsest grid leaves a zero to take off. -/
def shortest (p : Parts) : Scientific :=
  let i := Interval.around p
  let e := decimalExponent i.value i.denominator
  let found := (List.range 17).findSome? fun (n : Nat) => i.onGrid? (e - 1 - n)
  (found.getD ⟨0, 0⟩).withoutZero

/-- The digits in positional notation, without an exponent and without a point
where there is no fraction. -/
def Scientific.positional (d : Scientific) : String :=
  let digits := Nat.toDigits 10 d.digits
  if 0 ≤ d.exponent then String.ofList (digits ++ List.replicate d.exponent.toNat '0')
  else
    let places := (-d.exponent).toNat
    let padded := List.replicate (places + 1 - digits.length) '0' ++ digits
    let whole := padded.take (padded.length - places)
    let fraction := padded.drop (padded.length - places)
    String.ofList (whole ++ ['.'] ++ fraction)

/-- The shortest text of a double: never an exponent, no point in a whole
number, and a sign also on zero. -/
def text (x : Float) : String :=
  match Binary.ofBits x.toBits with
  | .notANumber => "NaN"
  | .infinite negative => if negative then "-inf" else "inf"
  | .finite p =>
    let magnitude := if p.mantissa = 0 then "0" else (shortest p).positional
    if p.negative then "-" ++ magnitude else magnitude

end RadioStream.Decimal
