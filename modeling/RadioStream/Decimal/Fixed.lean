import RadioStream.Decimal.Binary64
/-!
# Nine places

Decimals with a fixed number of places, rounded from the exact value of a
double, a half to the even neighbour.
-/

namespace RadioStream.Decimal

/-- A count of units of `10 ^ -places` as a decimal with that many places. -/
def withPlaces (places units : Nat) : String :=
  let digits := Nat.toDigits 10 (units % Nat.pow 10 places)
  let fraction := List.replicate (places - digits.length) '0' ++ digits
  toString (units / Nat.pow 10 places) ++ "." ++ String.ofList fraction

/-- A double with nine places; the sign stays on a value that rounds to zero. -/
def ninePlaces (x : Float) : String :=
  match Binary.ofBits x.toBits with
  | .notANumber => "NaN"
  | .infinite negative => if negative then "-inf" else "inf"
  | .finite p =>
    let num := p.mantissa * Nat.pow 2 p.exponent.toNat * Nat.pow 10 9
    let magnitude := withPlaces 9 (roundHalfEven num (Nat.pow 2 (-p.exponent).toNat))
    if p.negative then "-" ++ magnitude else magnitude

end RadioStream.Decimal
