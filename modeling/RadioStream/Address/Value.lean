import RadioStream.Decimal.Reader
import RadioStream.Error
/-!
# Numbers in addresses

Reading the value of a key as a number. An absent key is no error, a value that
is not a number is.
-/

namespace RadioStream.Address

/-- The value of a key as read by `read`, if the key is there. -/
def value? {α : Type} (read : String → Option α) (a : Address) (key : String) :
    Except Error (Option α) :=
  match a.get? key with
  | none => .ok none
  | some raw => match read raw with
    | some x => .ok (some x)
    | none => .error (.argument (.unreadableValue raw key))

/-- The value of a key as a whole number. -/
def word? (a : Address) (key : String) : Except Error (Option Nat) :=
  a.value? Decimal.readWord key

/-- The value of a key as a double. -/
def float? (a : Address) (key : String) : Except Error (Option Float) :=
  a.value? Decimal.readFloat key

/-- The value of a key as a whole number, or another number if the key is
absent. -/
def wordD (a : Address) (key : String) (fallback : Nat) : Except Error Nat := do
  return (← a.word? key).getD fallback

/-- The value of a key as a double, or another one if the key is absent. -/
def floatD (a : Address) (key : String) (fallback : Float) : Except Error Float := do
  return (← a.float? key).getD fallback

end RadioStream.Address
