import RadioStream.Address.Fingerprint
import RadioStream.Error
/-!
# The registry

A registry knows families of devices. Each can find the devices that a hint
describes and make a session with one. Of each device there is one session at a
time, shared by all who ask for it and kept as long as someone holds it.

Asking for a session takes two steps: `Registry.choose` looks for the device,
and `Registry.acquire` finds or makes its session. Whatever others do may fall
between the two.

A session ends when nobody holds it any more. The registry holds none itself: it
remembers the last session with each device by its number, and forgets those
that have ended when it remembers another.
-/

namespace RadioStream

/-- The devices that a family makes, or that a caller asks for. -/
inductive DeviceKind where
  /-- Any at all. -/
  | any
  /-- Radios. -/
  | usrp
  /-- Clock sources. -/
  | clock
deriving DecidableEq, Repr

/-- Whether a caller who asks for one kind wants families of another. -/
def DeviceKind.wants (asked family : DeviceKind) : Bool := asked == .any || asked == family

/-- A family of devices. Making one may change the surroundings. -/
structure Family (δ σ : Type) where
  find : Address → Except Error (List Address)
  make : Address → σ → Except Error δ × σ
  kind : DeviceKind

/-- A device in use. -/
structure DeviceSession (δ : Type) where
  id : Nat
  device : δ
  /-- How many hold it. -/
  holders : Nat

/-- A device that was chosen for use. -/
structure Candidate (δ σ : Type) where
  /-- The address it was found by. -/
  found : Address
  /-- Which device it is. -/
  identity : Bytes
  /-- The address it was found by, and what else the hint says. -/
  address : Address
  family : Family δ σ

/-- Families of devices, and the sessions in use. -/
structure Registry (δ σ : Type) where
  families : List (Family δ σ) := []
  /-- Completes the address of a device before it is made. -/
  complete : Address → Address := id
  /-- What is kept of a fingerprint, to tell devices apart. -/
  digest : Bytes → Bytes := id
  /-- The sessions that somebody holds. -/
  sessions : List (DeviceSession δ) := []
  /-- The number of the last session with each device. It may have ended. -/
  remembered : List (Bytes × Nat) := []
  /-- Number of the next session. -/
  nextId : Nat := 0

/-- The elements whose key no earlier element has. -/
def distinctBy {α κ : Type} [BEq κ] (key : α → κ) : List α → List α
  | [] => []
  | x :: xs => x :: (distinctBy key xs).filter fun y => !(key y == key x)

namespace Registry

variable {δ σ : Type}

/-- Adds a family. -/
def register (r : Registry δ σ) (f : Family δ σ) : Registry δ σ :=
  { r with families := r.families ++ [f] }

/-! ## Discovery -/

/-- Which device an address means. -/
def identityOf (r : Registry δ σ) (a : Address) : Bytes := r.digest a.fingerprint

/-- The devices of a family that a hint describes; none if looking for them
fails. -/
def found (hint : Address) (f : Family δ σ) : List (Address × Family δ σ) :=
  match f.find hint with
  | .ok as => as.map (·, f)
  | .error _ => []

/-- The devices that a hint describes, each with the family that found it first,
in the order of the families. -/
def discover (r : Registry δ σ) (hint : Address) (kind : DeviceKind) :
    List (Address × Family δ σ) :=
  let families := r.families.filter fun f => kind.wants f.kind
  distinctBy (fun p => r.identityOf p.1) (families.flatMap (found hint))

/-- The addresses of the devices that a hint describes. -/
def find (r : Registry δ σ) (hint : Address) (kind : DeviceKind) : List Address :=
  (r.discover hint kind).map (·.1)

/-- Chooses one of the devices that a hint describes. The address is completed
with what else the hint says. -/
def choose (r : Registry δ σ) (hint : Address) (kind : DeviceKind) (which : Nat) :
    Except Error (Candidate δ σ) :=
  match r.discover hint kind with
  | [] => .error (.noDevice hint)
  | all => match all[which]? with
    | none => .error (.noSuchDevice which hint)
    | some (a, family) =>
      .ok { found := a, identity := r.identityOf a, address := a.fillFrom hint, family }

/-! ## Sessions -/

/-- The session of a number, if it has not ended. -/
def byId? (r : Registry δ σ) (id : Nat) : Option (DeviceSession δ) :=
  r.sessions.find? (·.id == id)

/-- The session with a device, if there is one. -/
def session? (r : Registry δ σ) (identity : Bytes) : Option (DeviceSession δ) :=
  (r.remembered.lookup identity).bind r.byId?

/-- Holds a session once more. -/
def hold (r : Registry δ σ) (id : Nat) : Registry δ σ :=
  { r with sessions := r.sessions.map fun x =>
      if x.id = id then { x with holders := x.holders + 1 } else x }

/-- Starts a session with a device that was made, held by who made it. -/
def start (r : Registry δ σ) (device : δ) : DeviceSession δ × Registry δ σ :=
  let new : DeviceSession δ := { id := r.nextId, device, holders := 1 }
  (new, { r with sessions := r.sessions ++ [new], nextId := r.nextId + 1 })

/-- Forgets the sessions that have ended. -/
def prune (r : Registry δ σ) : Registry δ σ :=
  { r with remembered := r.remembered.filter fun e => (r.byId? e.2).isSome }

/-- Remembers the session with a device, in place of an earlier one. -/
def remember (r : Registry δ σ) (identity : Bytes) (id : Nat) : Registry δ σ :=
  { r with remembered := (identity, id) :: r.remembered.filter fun e => e.1 != identity }

/-- The address that a device is made with. -/
def arguments (r : Registry δ σ) (c : Candidate δ σ) : Address := r.complete c.address

/-- Holds the session with a device, which is made if there is none. -/
def acquire (r : Registry δ σ) (c : Candidate δ σ) (s : σ) :
    Except Error (DeviceSession δ) × Registry δ σ × σ :=
  match r.session? c.identity with
  | some old => (.ok { old with holders := old.holders + 1 }, r.hold old.id, s)
  | none => match c.family.make (r.arguments c) s with
    | (.error e, s) => (.error e, r, s)
    | (.ok device, s) =>
      let (new, r) := r.start device
      (.ok new, r.prune.remember c.identity new.id, s)

/-- Finds a device and holds the session with it. -/
def make (r : Registry δ σ) (hint : Address) (kind : DeviceKind) (which : Nat) (s : σ) :
    Except Error (DeviceSession δ) × Registry δ σ × σ :=
  match r.choose hint kind which with
  | .error e => (.error e, r, s)
  | .ok c => r.acquire c s

/-- Lets go of a session once; it ends when nobody holds it. -/
def release (r : Registry δ σ) (id : Nat) : Registry δ σ :=
  let sessions := r.sessions.map fun x =>
    if x.id = id then { x with holders := x.holders - 1 } else x
  { r with sessions := sessions.filter (0 < ·.holders) }

/-- Number of sessions in use, as far as they are remembered. -/
def live (r : Registry δ σ) : Nat := r.remembered.countP fun e => (r.byId? e.2).isSome

end Registry

end RadioStream
