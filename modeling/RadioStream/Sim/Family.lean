import RadioStream.Registry
import RadioStream.Sim.Device
/-!
# The family of simulated devices
-/

namespace RadioStream.Sim

/-- The family of simulated devices, among devices of more families. -/
def family {δ σ : Type} (wrap : Device → δ) : Family δ σ where
  find := find
  make a s := ((Device.new a).map wrap, s)
  kind := .usrp

end RadioStream.Sim
