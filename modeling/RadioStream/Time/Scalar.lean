/-!
# Numbers that measure time

Device time needs few operations of its numbers: the four rules of arithmetic,
rounding down and to nearest, and the way to and from whole numbers. Doubles
have them with rounding errors; a type without rounding errors can be put in
their place to reason about the arithmetic alone.
-/

namespace RadioStream

/-- The operations that device time is computed with. -/
class Scalar (α : Type) extends Add α, Sub α, Mul α, Div α where
  /-- A whole number. -/
  ofInt : Int → α
  /-- The largest whole number not above. -/
  floor : α → α
  /-- The nearest whole number, a half away from zero. -/
  round : α → α
  /-- The whole number that is left without the fraction. -/
  toInt : α → Int

/-- Doubles. A whole number past the range of sixty-four bits becomes the end of
the range, not-a-number becomes zero. -/
instance : Scalar Float where
  ofInt n := (Int64.ofInt n).toFloat
  floor := Float.floor
  round := Float.round
  toInt x := x.toInt64.toInt

end RadioStream
