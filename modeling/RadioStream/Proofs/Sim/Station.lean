import RadioStream.Proofs.Lane
import RadioStream.Proofs.Packet
import RadioStream.Sim.ReceiveChain
/-!
# A receive chain at work

A `Station` is a receive chain on its link with a host at the other end. The chain steps
whenever it likes, with the clock as it then stands; in between the host sends frames,
takes those that wait for it, keeps them as long as it likes and lets them go, and may
give up its end. The log holds what the chain put on the link and when, read off the
link.
-/

namespace RadioStream.Sim

/-- What a receive chain sends. -/
inductive Emission where
  | data (p : DataPacket)
  | status (code : RxCode) (tick : Nat)

/-- A status packet on the wire. -/
def statusBytes (code : RxCode) (tick : Nat) : Bytes :=
  (Header.stamped { kind := .status, payloadLength := 4 } (some (UInt64.ofNat tick))).bytes ++
    bigEndian 4 code.wire.toNat

namespace Emission

/-- What is sent, on the wire. -/
def bytes (format : WireFormat) : Emission → Bytes
  | data p => DataPacket.bytes format p.header p.samples
  | status code tick => statusBytes code tick

/-- The data packet that is sent, if it is one. -/
def packet? : Emission → Option DataPacket
  | data p => some p
  | status _ _ => none

end Emission

/-- What happens at a station. -/
inductive StationAction where
  /-- The chain takes a step. -/
  | chain (now : Reading)
  /-- The host sends bytes, if it has an idle frame. -/
  | post (bs : Bytes)
  /-- The host takes the frame that has waited longest. -/
  | take
  /-- The host lets a frame go. -/
  | release (i : Nat)
  /-- The host gives up its end. -/
  | close

/-- A receive chain, its link and the frames that the host keeps. -/
structure Station where
  chain : ReceiveChain
  link : Link
  kept : List Frame := []
  /-- The frames that the chain took. -/
  heard : List Bytes := []
  /-- What the chain sent, with the tick of the clock. -/
  log : List (Nat × Bytes) := []

namespace Station

/-- A station at the start of its chain. -/
def fresh (format : WireFormat) (rate : Float) (packetSamples : Nat) (link : Link) : Station :=
  { chain := { format, rate, packetSamples }, link }

/-- The chain takes a step. -/
def tick (now : Reading) (x : Station) : Station :=
  let (chain, link) := x.chain.step now x.link
  let taken := x.link.toDevice.pending.take (x.link.toDevice.pending.length - link.toDevice.pending.length)
  let sent := link.toHost.pending.drop x.link.toHost.pending.length
  { x with chain, link, heard := x.heard ++ taken, log := x.log ++ sent.map (now.tick, ·) }

def step (x : Station) : StationAction → Station
  | .chain now => x.tick now
  | .post bs => { x with link := ((Terminal.ofEnd .host).sendBytes 0 bs x.link).2 }
  | .take => match x.link.receive .host with
    | (some f, link) => { x with link, kept := x.kept ++ [f] }
    | (none, link) => { x with link }
  | .release i => match x.kept[i]? with
    | some f => { x with link := x.link.recycle .host f, kept := x.kept.eraseIdx i }
    | none => x
  | .close => { x with link := x.link.close }

def run (x : Station) (as : List StationAction) : Station := as.foldl step x

theorem run_append (x : Station) (as bs : List StationAction) : x.run (as ++ bs) = (x.run as).run bs :=
  List.foldl_append

end Station

/-! ## The clock -/

/-- What the clock shows at the steps of the chain. -/
def readings (as : List StationAction) : List Reading :=
  as.filterMap fun
    | .chain now => some now
    | _ => none

theorem readings_append (as bs : List StationAction) : readings (as ++ bs) = readings as ++ readings bs :=
  List.filterMap_append

/-- A reading of a clock of sixty-four bits that can tell the time left until any tick:
none exactly if the tick is reached. -/
structure Reading.Exact (now : Reading) : Prop where
  bounded : now.tick < 2 ^ 64
  left : ∀ tick, ∃ time, now.left? tick = some time ∧ (time = 0 ↔ tick ≤ now.tick)

/-- The clock is exact and never goes back. -/
structure Ticking (as : List StationAction) : Prop where
  exact : ∀ now ∈ readings as, now.Exact
  monotone : (readings as).Pairwise (·.tick ≤ ·.tick)

/-- An exact reading at a tick. -/
def Reading.at (tick : Nat) : Reading where
  elapsed := tick
  tick
  left? t := some (t - tick)

theorem Reading.exact_at {tick : Nat} (h : tick < 2 ^ 64) : (Reading.at tick).Exact where
  bounded := h
  left t := ⟨t - tick, rfl, Nat.sub_eq_zero_iff_le⟩

theorem Ticking.of_ticks {as : List StationAction} (ticks : List Nat) (hr : readings as = ticks.map Reading.at)
    (hbound : ∀ t ∈ ticks, t < 2 ^ 64) (hmono : ticks.Pairwise (· ≤ ·)) : Ticking as where
  exact now h := by
    rw [hr] at h
    obtain ⟨t, ht, rfl⟩ := List.mem_map.1 h
    exact Reading.exact_at (hbound t ht)
  monotone := by
    rw [hr, List.pairwise_map]
    exact hmono

end RadioStream.Sim
