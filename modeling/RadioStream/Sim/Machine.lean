import RadioStream.Sim.ReceiveChain
import RadioStream.Sim.TransmitChain
import RadioStream.Transmitter.Events
/-!
# The machine

A machine holds the circuits of a simulated device and the listeners that read
their events. Its time passes only while somebody waits for it: then those who
have something to do take turns, the one that is due first before the others.
Times are nanoseconds since the clock was started.
-/

namespace RadioStream.Sim

/-- The chain at the device end of a link. -/
inductive Chain where
  | receive (c : ReceiveChain)
  | transmit (c : TransmitChain)

namespace Chain

/-- What a chain waits for before its next step. -/
def pause : Chain → Pause
  | receive c => c.pause
  | transmit c => c.pause

/-- One step of a chain. -/
def step (now : Reading) : Chain → Link → Chain × Link
  | receive c, l => let (c, l) := c.step now l; (receive c, l)
  | transmit c, l => let (c, l) := c.step now l; (transmit c, l)

/-- Whether a chain has ended. -/
def isStopped : Chain → Bool
  | receive { phase := .stopped, .. } => true
  | transmit { phase := .stopped, .. } => true
  | _ => false

/-- How many packets a chain can still send without another command. -/
def backlog : Chain → Nat
  | receive c => c.commands.length + 1
  | transmit _ => 0

end Chain

/-- A link and the chain at its device end. -/
structure Circuit where
  link : Link
  chain : Chain
  /-- When the chain took its last step. -/
  since : Nat

/-- A reader of the events of some circuits. -/
structure Listener where
  reader : EventReader
  circuits : List Nat
  /-- Position of the circuit to visit next. -/
  position : Nat := 0
  /-- When the last visit was. -/
  since : Nat
  active : Bool := true

/-- The circuits and listeners of a device. -/
structure Machine where
  /-- Ticks a second. -/
  rate : Float
  now : Nat
  circuits : List Circuit := []
  listeners : List Listener := []

/-- Who may take a turn. -/
inductive Party where
  | circuit (i : Nat)
  | listener (i : Nat)

/-- How long a turn takes. -/
def turnTime : Nat := 1000

/-- When to go on after a wait of at most some time that something else ends
early. -/
def dueAt (since most : Nat) (early : Bool) : Nat :=
  since + if early then turnTime else max most turnTime

namespace Circuit

/-- When the chain takes its next step. -/
def due? (c : Circuit) : Option Nat :=
  if c.chain.isStopped then none
  else some <| match c.chain.pause with
    | .none => dueAt c.since 0 false
    | .sleep time => dueAt c.since time false
    | .frame most => dueAt c.since most (0 < c.link.pending .device)
    | .room most => dueAt c.since most (0 < (c.link.outbound .device).home.available)

/-- The chain takes a step. -/
def step (now : Reading) (c : Circuit) : Circuit :=
  let (chain, link) := c.chain.step now c.link
  { link, chain, since := now.elapsed }

end Circuit

namespace Machine

/-! ## Turns -/

/-- The link of a circuit. -/
def link? (m : Machine) (i : Nat) : Option Link := m.circuits[i]?.map (·.link)

/-- The machine with another link at a circuit. -/
def withLink (m : Machine) (i : Nat) (l : Link) : Machine :=
  { m with circuits := m.circuits.modify i fun c => { c with link := l } }

/-- Whether a frame waits for the host. -/
def hasFrame (i : Nat) (m : Machine) : Bool := (m.link? i).any (0 < ·.pending .host)

/-- Whether the host has an idle frame to fill. -/
def hasRoom (i : Nat) (m : Machine) : Bool :=
  (m.link? i).any fun l => 0 < (l.outbound .host).home.available

/-- The circuit that a listener visits next. -/
def visited? (l : Listener) : Option Nat := l.circuits[l.position]?

/-- When a listener makes its next visit. -/
def listenerDue? (m : Machine) (l : Listener) : Option Nat :=
  if l.active then
    (visited? l).map fun i => dueAt l.since EventReader.visitWait (m.hasFrame i)
  else none

/-- Those who will take a turn, with the time of it. -/
def agenda (m : Machine) : List (Nat × Party) :=
  let circuits := m.circuits.mapIdx fun i c => c.due?.map (·, Party.circuit i)
  let listeners := m.listeners.mapIdx fun i l => (m.listenerDue? l).map (·, Party.listener i)
  (circuits ++ listeners).filterMap id

/-- The earliest entry of an agenda, and of several the first. -/
def earliest : List (Nat × Party) → Option (Nat × Party)
  | [] => none
  | a :: rest => match earliest rest with
    | some b => some (if a.1 ≤ b.1 then a else b)
    | none => some a

/-- A terminal to a link where nothing happens while one waits. -/
def still (i : Nat) : Terminal Machine where
  receive _ m := match m.link? i with
    | some l => let (f, l) := l.receive .host; (f, m.withLink i l)
    | none => (none, m)
  recycle f m := match m.link? i with
    | some l => m.withLink i (l.recycle .host f)
    | none => m
  acquire _ m := match m.link? i with
    | some l => let (f, l) := l.acquire .host; (f, m.withLink i l)
    | none => (none, m)
  submit f m := match m.link? i with
    | some l => m.withLink i (l.submit .host f)
    | none => m
  backlog m := match m.circuits[i]? with
    | some c => c.link.pending .host + c.link.pending .device + c.chain.backlog
    | none => 0

/-- A listener visits its next circuit. -/
def visit (m : Machine) (i : Nat) (l : Listener) : Machine :=
  match visited? l with
  | none => m
  | some circuit =>
    let (reader, m) := l.reader.visit (still circuit) l.position 0 m
    let position := if l.position + 1 < l.circuits.length then l.position + 1 else 0
    { m with listeners := m.listeners.set i { l with reader, position, since := m.now } }

/-- Somebody takes a turn. -/
def turn (m : Machine) : Party → Machine
  | .circuit i => { m with circuits := m.circuits.modify i (·.step (.ofElapsed m.rate m.now)) }
  | .listener i => match m.listeners[i]? with
    | some l => m.visit i l
    | none => m

/-- Lets time pass up to a deadline, or until something is so. -/
def advance (deadline : Nat) (done : Machine → Bool) : Nat → Machine → Machine
  | 0, m => m
  | fuel + 1, m =>
    if done m then m
    else match earliest m.agenda with
      | some (due, party) =>
        if due ≤ deadline then
          advance deadline done fuel ({ m with now := max m.now due }.turn party)
        else { m with now := max m.now deadline }
      | none => { m with now := max m.now deadline }

/-- Waits until something is so, but not longer than some time. Everybody takes
one turn at most in each `turnTime`, which bounds the turns. -/
def await (time : Nat) (done : Machine → Bool) (m : Machine) : Machine :=
  if time = 0 then m
  else
    let turns := (m.circuits.length + m.listeners.length) * (time / turnTime + 2) + 1
    m.advance (m.now + time) done turns

/-- Lets some time pass. -/
def sleep (time : Nat) (m : Machine) : Machine := m.await time fun _ => false

/-! ## Circuits -/

/-- A machine without circuits. -/
def new (rate : Float) (now : Nat) : Machine := { rate, now }

/-- Adds a circuit and gives its number. -/
def addCircuit (m : Machine) (link : Link) (chain : Chain) : Nat × Machine :=
  (m.circuits.length, { m with circuits := m.circuits ++ [{ link, chain, since := m.now }] })

/-- Adds a listener to circuits and gives its number. -/
def addListener (m : Machine) (circuits : List Nat) : Nat × Machine :=
  let l : Listener := { reader := EventReader.new m.rate, circuits, since := m.now }
  (m.listeners.length, { m with listeners := m.listeners ++ [l] })

/-- The host gives up the link of a circuit, which ends its chain. -/
def closeCircuit (m : Machine) (i : Nat) : Machine :=
  match m.link? i with
  | some l => m.withLink i l.close
  | none => m

/-- Ends a listener. -/
def closeListener (m : Machine) (i : Nat) : Machine :=
  { m with listeners := m.listeners.modify i fun l => { l with active := false } }

/-- Whether the chain of a circuit goes on. -/
def isRunning (m : Machine) (i : Nat) : Bool := m.circuits[i]?.any (!·.chain.isStopped)

/-- Number of chains that go on. -/
def running (m : Machine) : Nat := m.circuits.countP (!·.chain.isStopped)

/-- Whether a listener has an event. -/
def hasEvent (i : Nat) (m : Machine) : Bool := m.listeners[i]?.any (!·.reader.queue.isEmpty)

/-- Waits for an event and takes it. -/
def takeEvent (i : Nat) (time : Nat) (m : Machine) : Option Event × Machine :=
  let m := m.await time (hasEvent i)
  match m.listeners[i]? with
  | some l =>
    let (e, reader) := l.reader.take
    (e, { m with listeners := m.listeners.set i { l with reader } })
  | none => (none, m)

/-- The words that wait to be raised by a transmit chain. -/
def injections? (m : Machine) (i : Nat) : Option (Queue Words) :=
  match m.circuits[i]? with
  | some { chain := .transmit t, .. } => some t.injections
  | _ => none

/-- The words that wait to be raised by a transmit chain, changed by a
function. -/
def changeInjections (i : Nat) (f : Queue Words → Queue Words) (m : Machine) : Machine :=
  { m with circuits := m.circuits.modify i fun c => match c.chain with
    | .transmit t => { c with chain := .transmit { t with injections := f t.injections } }
    | .receive _ => c }

/-- Waits until another word can wait to be raised, and has it raised. -/
def injectIn (i : Nat) (time : Nat) (words : Words) (m : Machine) : Machine :=
  (m.await time fun m => (m.injections? i).any (!·.isFull)).changeInjections i fun q =>
    (q.push? words).getD q

/-- The host end of a circuit: while one waits, time passes. -/
def terminal (i : Nat) : Terminal Machine :=
  { still i with
    receive := fun time m =>
      let m := if (m.link? i).all (·.closed) then m else m.await time (hasFrame i)
      (still i).receive 0 m
    acquire := fun time m => (still i).acquire 0 (m.await time (hasRoom i)) }

/-- The host ends of some circuits. -/
def terminals (circuits : List Nat) (i : Nat) : Terminal Machine := terminal (circuits.getD i 0)

end Machine

end RadioStream.Sim
