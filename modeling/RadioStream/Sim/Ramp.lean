import RadioStream.Sample
/-!
# The simulated signal

Each tick has a sample: a ramp of fifteen bits and its negative.
-/

namespace RadioStream.Sim

/-- The sample of a tick. -/
def ramp (tick : Nat) : Iq Int16 :=
  let v := Int16.ofNat (tick % Nat.pow 2 15)
  ⟨v, -v⟩

end RadioStream.Sim
