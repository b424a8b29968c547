import RadioStream.Receiver.Channel
/-!
# The receiver

A receiver turns the packets of one link per channel into samples in the caller's
buffers. A packet larger than the buffers is handed out in fragments. The
channels are brought to one time before samples are copied. Each call reports
one condition in its metadata; a condition met after samples were gathered is
kept for the next call. Only misuse is an error.
-/

namespace RadioStream

/-- A receiver, its links apart. -/
structure Receiver where
  channels : List RxChannel
  format : WireFormat
  /-- Ticks, and samples, a second. -/
  rate : Float
  /-- Most samples in a packet. -/
  packetSamples : Nat
  state : StreamState := .idle
  /-- A condition for the next call to report. -/
  deferred : Option Condition := none

/-- What a receive call leaves behind. -/
structure Received (S σ : Type) where
  /-- Samples written to each buffer. -/
  outcome : Except Error Nat
  buffers : List (List S)
  metadata : RxMetadata
  receiver : Receiver
  surroundings : σ

/-- How one step of a receive call went. -/
structure Portion where
  /-- Header of the packet of the first channel. -/
  header : Header
  /-- Samples of that packet handed out before. -/
  offset : Nat
  /-- Samples handed out. -/
  count : Nat
  /-- Whether no packet has samples left. -/
  exhausted : Bool

namespace Receiver

variable {σ S : Type}

/-- Rounds of realignment for each channel. -/
def roundsPerChannel : Nat := 4

/-- How long to wait for a frame to send a command in. -/
def commandWait : Nat := 100000000

/-- A receiver over links with the given sizes of receive frames. Every link must
take packets of `packetSamples` samples. Their length in bytes is a number without end,
which has sixty-four bits for fewer than `2 ^ 61` samples. -/
def new (frameSizes : List Nat) (format : WireFormat) (rate : Float) (packetSamples : Nat) :
    Except Error Receiver :=
  let needed := Header.size + packetSamples * format.sampleBytes
  if frameSizes.isEmpty then .error (.argument .receiveWithoutChannel)
  else if packetSamples = 0 then .error (.argument .noSamplesPerPacket)
  else match frameSizes.find? (· < needed) with
    | some frame => .error (.argument (.receiveFrameTooSmall packetSamples format needed frame))
    | none => .ok { channels := frameSizes.map fun _ => {}, format, rate, packetSamples }

/-! ## Commands -/

/-- Sends a command on every channel from number `i` on, up to the first failure.
The state follows the command as soon as one channel has it. -/
def issueFrom (terminals : Nat → Terminal σ) (c : StreamCommand) (i : Nat) :
    Nat → Receiver → σ → Except Error Unit × Receiver × σ
  | 0, r, s => (.ok (), { r with state := StreamState.ofCommand c }, s)
  | n + 1, r, s => match (terminals i).send commandWait (c.encode r.rate) s with
    | (none, s) =>
      let r := if 0 < i then { r with state := StreamState.ofCommand c } else r
      (.error (.noCommandFrame i), r, s)
    | (some (.error e), s) => (.error e, r, s)
    | (some (.ok _), s) => issueFrom terminals c (i + 1) n r s

/-- Sends a command on every channel. -/
def issue (terminals : Nat → Terminal σ) (r : Receiver) (c : StreamCommand) (s : σ) :
    Except Error Unit × Receiver × σ :=
  issueFrom terminals c 0 r.channels.length r s

/-! ## Alignment -/

/-- The tick that all packets share, or the newest one. There is none if a packet
has no time, and then no time to align by. -/
def newestTick (cs : List RxChannel) : Option Nat :=
  (cs.mapM fun (c : RxChannel) => c.held.bind Held.tick?).map fun ticks => ticks.foldl max 0

/-- Brings a packet to each channel and lets go of those that are behind the
newest, until all are at one tick or the rounds are used up. -/
def alignRounds (terminals : Nat → Terminal σ) (format : WireFormat) (wait : Nat) :
    Nat → List RxChannel → σ → Option Condition × List RxChannel × σ
  | 0, cs, s =>
    let (cs, s) := RxChannel.dropWhere terminals (fun _ => true) 0 cs s
    (some .misaligned, cs, s)
  | rounds + 1, cs, s => match RxChannel.fetchAll terminals format wait 0 cs s with
    | (some condition, cs, s) => (some condition, cs, s)
    | (none, cs, s) => match newestTick cs with
      | none => (none, cs, s)
      | some newest =>
        if cs.any fun c => c.held.any (Held.behind newest) then
          let (cs, s) := RxChannel.dropWhere terminals (Held.behind newest) 0 cs s
          alignRounds terminals format wait rounds cs s
        else (none, cs, s)

/-- Makes sure that every channel holds a packet and that all are at one tick. -/
def align (terminals : Nat → Terminal σ) (wait : Nat) (r : Receiver) (s : σ) :
    Option Condition × Receiver × σ :=
  let rounds := r.channels.length * roundsPerChannel
  let (condition, channels, s) := alignRounds terminals r.format wait rounds r.channels s
  let state := match condition with
    | some condition => r.state.after condition
    | none => r.state
  (condition, { r with channels, state }, s)

theorem exists_rounds {n : Nat} (h : 0 < n) : ∃ rounds, n * roundsPerChannel = rounds + 1 := by
  have hp : 0 < n * roundsPerChannel := Nat.mul_pos h (by decide)
  exact ⟨_, (Nat.sub_add_cancel hp).symm⟩

/-- One round is enough where a condition is met or no packet is behind. -/
theorem align_of_fetchAll {terminals : Nat → Terminal σ} {wait : Nat} {r : Receiver} {s s' : σ}
    {k : Option Condition} {cs : List RxChannel} (hne : r.channels ≠ [])
    (hf : RxChannel.fetchAll terminals r.format wait 0 r.channels s = (k, cs, s'))
    (hk : k = none → ∀ newest, newestTick cs = some newest →
      (cs.any fun c => c.held.any (Held.behind newest)) = false) :
    r.align terminals wait s = (k, { r with channels := cs, state := k.elim r.state r.state.after }, s') := by
  obtain ⟨rounds, hn⟩ := exists_rounds (List.length_pos_iff.2 hne)
  have ha : alignRounds terminals r.format wait (rounds + 1) r.channels s = (k, cs, s') := by
    rw [alignRounds, hf]
    cases k with
    | some c => rfl
    | none =>
      dsimp only
      cases hnew : newestTick cs with
      | none => rfl
      | some newest => simp only [hk rfl newest hnew, Bool.false_eq_true, if_false]
  unfold align
  rw [hn]
  dsimp only
  rw [ha]
  cases k <;> rfl

/-! ## Samples -/

/-- The packet that the first channel holds. -/
def leading? (r : Receiver) : Option Held := r.channels.head?.bind (·.held)

/-- Samples that every channel can hand out. -/
def commonRemaining (cs : List RxChannel) : Nat :=
  ((cs.filterMap (·.held)).map Held.remaining).min?.getD 0

/-- Hands out up to `most` samples of the packets held, into each buffer from a
position on. -/
def consume [HostSample S] (terminals : Nat → Terminal σ) (position most : Nat) (r : Receiver)
    (buffers : List (List S)) (s : σ) : Portion × Receiver × List (List S) × σ :=
  match r.leading? with
  | none => (⟨{}, 0, 0, true⟩, r, buffers, s)
  | some lead =>
    let n := min (commonRemaining r.channels) most
    let (channels, buffers, s) :=
      RxChannel.advanceAll terminals r.format position n 0 r.channels buffers s
    (⟨lead.header, lead.offset, n, channels.all (·.held.isNone)⟩, { r with channels }, buffers, s)

/-- The metadata after a portion that ends at a position: a vector that ends with
the packet is noted. -/
def noteVector (p : Portion) (position : Nat) (md : RxMetadata) : RxMetadata :=
  if p.exhausted && p.header.endOfVector then
    { md with eov := md.eov.map (·.push position) }
  else md

/-- Goes on with further packets after a portion that ended at `total`, as long
as there is room, no burst has ended, none begins, and packets come. Gives the
last portion and the end of it. -/
def gather [HostSample S] (terminals : Nat → Terminal σ) (wait count : Nat) :
    Nat → Portion → Nat → Receiver → List (List S) → RxMetadata → σ →
      Portion × Nat × Receiver × List (List S) × RxMetadata × σ
  | 0, last, total, r, buffers, md, s => (last, total, r, buffers, md, s)
  | fuel + 1, last, total, r, buffers, md, s =>
    if last.exhausted && !last.header.endOfBurst && total < count then
      match r.align terminals wait s with
      | (some condition, r, s) =>
        let r := if condition.code = .timeout then r else { r with deferred := some condition }
        (last, total, r, buffers, md, s)
      | (none, r, s) =>
        if r.leading?.any Held.startsBurst then (last, total, r, buffers, md, s)
        else
          let (next, r, buffers, s) := r.consume terminals total (count - total) buffers s
          let total := total + next.count
          gather terminals wait count fuel next total r buffers (noteVector next total md) s
    else (last, total, r, buffers, md, s)

/-- The metadata that describes where a packet is begun or gone on with. -/
def describe (r : Receiver) (header : Header) (offset : Nat) (md : RxMetadata) : RxMetadata :=
  { md with
    hasTime := header.hasTime
    time := Held.timeAt header offset r.rate
    startOfBurst := header.startOfBurst && offset == 0
    fragmentOffset := offset }

/-- A call for no samples: reports what comes next. A packet without samples is
let go, since no later call could hand any out. -/
def poll (terminals : Nat → Terminal σ) (wait : Nat) (r : Receiver) (md : RxMetadata) (s : σ) :
    RxMetadata × Receiver × σ :=
  match r.align terminals wait s with
  | (some condition, r, s) =>
    (if condition.code = .timeout then md else condition.report r.rate md, r, s)
  | (none, r, s) => match r.leading? with
    | none => (md, r, s)
    | some lead =>
      let md := r.describe lead.header lead.offset md
      if lead.remaining = 0 then
        let (channels, s) := RxChannel.dropWhere terminals (fun _ => true) 0 r.channels s
        let ended := lead.header.endOfBurst
        ({ md with endOfBurst := ended },
          { r with channels, state := if ended then .idle else r.state }, s)
      else ({ md with moreFragments := true }, r, s)

/-- Bounds the packets that one call gathers: each hands out a sample or is one
of those on their way. -/
def patience (terminals : Nat → Terminal σ) (r : Receiver) (count : Nat) (s : σ) : Nat :=
  count + ((List.range r.channels.length).map fun i => (terminals i).backlog s).foldr (· + ·) 0

/-- A call for samples: hands out those of one packet, and of further packets
unless only one is asked for. -/
def deliver [HostSample S] (terminals : Nat → Terminal σ) (r : Receiver) (buffers : List (List S))
    (count wait : Nat) (onePacket : Bool) (md : RxMetadata) (s : σ) : Received S σ :=
  match r.align terminals wait s with
  | (some condition, r, s) => ⟨.ok 0, buffers, condition.report r.rate md, r, s⟩
  | (none, r, s) =>
    let (first, r, buffers, s) := r.consume terminals 0 count buffers s
    let md := noteVector first first.count (r.describe first.header first.offset md)
    let fuel := if onePacket then 0 else r.patience terminals count s
    let (last, total, r, buffers, md, s) :=
      gather terminals wait count fuel first first.count r buffers md s
    let ended := last.exhausted && last.header.endOfBurst
    { outcome := .ok total, buffers
      metadata := { md with moreFragments := !last.exhausted, endOfBurst := ended }
      receiver := { r with state := if ended then .idle else r.state }
      surroundings := s }

/-- Receives up to `count` samples into each buffer. -/
def recv [HostSample S] (terminals : Nat → Terminal σ) (r : Receiver) (buffers : List (List S))
    (count wait : Nat) (onePacket : Bool) (md : RxMetadata) (s : σ) : Received S σ :=
  if buffers.length ≠ r.channels.length then
    ⟨.error (.argument (.bufferCount r.channels.length buffers.length)), buffers, md, r, s⟩
  else match buffers.find? (·.length < count) with
    | some short => ⟨.error (.argument (.shortBuffer short.length count)), buffers, md, r, s⟩
    | none =>
      let md := md.reset
      match r.deferred with
      | some condition =>
        ⟨.ok 0, buffers, condition.report r.rate md, { r with deferred := none }, s⟩
      | none =>
        if count = 0 then
          let (md, r, s) := r.poll terminals wait md s
          ⟨.ok 0, buffers, md, r, s⟩
        else r.deliver terminals buffers count wait onePacket md s

end Receiver

end RadioStream
