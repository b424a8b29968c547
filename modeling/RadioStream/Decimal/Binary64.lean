/-!
# Binary floating point, exactly

A finite double is a whole number times a power of two. `parts` reads the two
off a double, `nearest` finds the double nearest to a quotient of whole
numbers, and both work in whole numbers only.
-/

namespace RadioStream.Decimal

/-- A finite double: the value is `mantissa · 2 ^ exponent`, with the sign in
front. -/
structure Parts where
  negative : Bool
  mantissa : Nat
  exponent : Int
deriving Repr, DecidableEq

/-- What a double holds. -/
inductive Binary where
  | finite (parts : Parts)
  | infinite (negative : Bool)
  | notANumber
deriving Repr, DecidableEq

/-- Reads the sixty-four bits of a double. -/
def Binary.ofBits (bits : UInt64) : Binary :=
  let n : Nat := bits.toNat
  let negative := n / Nat.pow 2 63 == 1
  let biased : Nat := n / Nat.pow 2 52 % 2048
  let fraction : Nat := n % Nat.pow 2 52
  if biased = 2047 then
    if fraction = 0 then .infinite negative else .notANumber
  else if biased = 0 then .finite ⟨negative, fraction, -1074⟩
  else .finite ⟨negative, fraction + Nat.pow 2 52, (biased : Int) - 1075⟩

/-- The quotient `num / den` rounded to a whole number, a half to the even
neighbour. -/
def roundHalfEven (num den : Nat) : Nat :=
  let q := num / den
  let r := num % den
  if 2 * r < den then q
  else if den < 2 * r then q + 1
  else if q % 2 = 0 then q else q + 1

/-- The quotient `num / den` divided by `2 ^ e`, as one of whole numbers. -/
def scaled (num den : Nat) (e : Int) : Nat × Nat :=
  (num * Nat.pow 2 (-e).toNat, den * Nat.pow 2 e.toNat)

/-- The bits of the positive double nearest to `num / den`, a half going to the
even mantissa, and infinity past the largest. -/
def nearestBits (num den : Nat) : Nat :=
  if num = 0 then 0
  else
    let estimate := max (-1074) ((num.log2 : Int) - den.log2 - 53)
    let (n, d) := scaled num den estimate
    let exponent := if n / d < Nat.pow 2 53 then estimate else estimate + 1
    let (n, d) := scaled num den exponent
    min ((exponent + 1074).toNat * Nat.pow 2 52 + roundHalfEven n d) (2047 * Nat.pow 2 52)

/-- The double nearest to `± num / den`. -/
def nearest (negative : Bool) (num den : Nat) : Float :=
  .ofBits (UInt64.ofNat (nearestBits num den + if negative then Nat.pow 2 63 else 0))

end RadioStream.Decimal
