import RadioStream.Receiver.Basic
/-!
# A receiver that checks its bounds

The operations of a receiver once more, with every slice, index and difference checked:
where one is out of range, an operation gives nothing. The lists of a receiver forgive such
things, a slice past the end is a short one and a difference below nought is nought, so
that it cannot be seen of them alone whether they ever had to.

The links of a checked receiver are counted apart from its channels, since it looks each of
them up by number.
-/

namespace RadioStream.Checked

variable {σ S : Type}

/-! ## Bounds -/

/-- The elements from one position up to another. -/
def slice {α : Type} (xs : List α) (first past : Nat) : Option (List α) :=
  if first ≤ past ∧ past ≤ xs.length then some ((xs.take past).drop first) else none

/-- A difference of natural numbers. -/
def minus (m n : Nat) : Option Nat := if n ≤ m then some (m - n) else none

/-! ## Packets -/

/-- Reads the header of a packet and its payload. -/
def decode (frame : Bytes) : Option (Except Error (Header × Bytes)) :=
  if frame.length < Header.size then some (.error (.packet (.shortFrame frame.length)))
  else do
    let first ← frame[0]?
    match PacketKind.ofWire? first with
    | none => some (.error (.packet (.unknownKind first)))
    | some kind =>
      let flags ← frame[1]?
      let sequence ← slice frame 2 4
      let length ← slice frame 4 8
      let timestamp ← slice frame 8 16
      let past := Header.size + ofBigEndian length
      if frame.length < past then some (.error (.packet (.payloadPastEnd (ofBigEndian length) frame.length)))
      else do
        let payload ← slice frame Header.size past
        let flag (i : Nat) := flags.toNat.testBit i
        some (.ok ({ kind, hasTime := flag 0, startOfBurst := flag 1, endOfBurst := flag 2
                     endOfVector := flag 3
                     sequence := UInt16.ofNat (ofBigEndian sequence)
                     payloadLength := UInt32.ofNat (ofBigEndian length)
                     timestamp := UInt64.ofNat (ofBigEndian timestamp) }, payload))

/-- Reads the condition in a status packet. -/
def decodeStatus (payload : Bytes) : Option (Except Error RxCode) :=
  if payload.length ≠ 4 then some (.error (.packet (.statusLength payload.length)))
  else do
    let word := UInt32.ofNat (ofBigEndian (← slice payload 0 4))
    match RxCode.ofWire? word with
    | .some c => some (.ok c)
    | .none => some (.error (.packet (.unknownStatus word)))

/-- What a frame holds. -/
def incoming (format : WireFormat) (frame : Bytes) : Option Incoming := do
  match ← decode frame with
  | .error _ => some .malformed
  | .ok (h, payload) => match h.kind with
    | .data =>
      if h.payloadLength.toNat % format.sampleBytes = 0 then
        some (.data h (h.payloadLength.toNat / format.sampleBytes))
      else some .malformed
    | .status => match ← decodeStatus payload with
      | .ok code => some (.status code (if h.hasTime then some h.timestamp else none))
      | .error _ => some .malformed
    | _ => some .malformed

/-! ## The packets held -/

/-- Samples still to be handed out. -/
def remaining (h : Held) : Option Nat := minus h.samples h.offset

/-- The bytes of the samples. -/
def payload (h : Held) : Option Bytes :=
  slice h.frame.payload Header.size (Header.size + h.header.payloadLength.toNat)

/-- The bytes of the samples still to be handed out. -/
def unread (format : WireFormat) (h : Held) : Option Bytes := do
  let bytes ← payload h
  slice bytes (h.offset * format.sampleBytes) bytes.length

/-! ## The channels -/

/-- Makes sure that a channel holds a packet. -/
def fetch (terminals : Nat → Terminal σ) (links : Nat) (format : WireFormat) (wait i : Nat) (cs : List RxChannel)
    (s : σ) : Option (Option Condition × List RxChannel × σ) := do
  let c ← cs[i]?
  if c.held.isSome then some (none, cs, s)
  else if links ≤ i then none
  else match (terminals i).receive wait s with
    | (none, s) => some (some .silence, cs, s)
    | (some frame, s) => match ← incoming format frame.payload with
      | .malformed => some (some .malformed, cs, (terminals i).recycle frame s)
      | .status code tick => some (some (.status code tick), cs, (terminals i).recycle frame s)
      | .data header samples =>
        let condition := if c.expected.all (· == header.sequence) then none else some .gap
        some (condition, cs.set i ⟨some { frame, header, samples }, some (header.sequence + 1)⟩, s)

/-- Makes sure that a number of channels hold a packet, up to the first condition. -/
def fetchAll (terminals : Nat → Terminal σ) (links : Nat) (format : WireFormat) (wait : Nat) :
    Nat → Nat → List RxChannel → σ → Option (Option Condition × List RxChannel × σ)
  | _, 0, cs, s => some (none, cs, s)
  | i, n + 1, cs, s => do
    match ← fetch terminals links format wait i cs s with
    | (some condition, cs, s) => some (some condition, cs, s)
    | (none, cs, s) => fetchAll terminals links format wait (i + 1) n cs s

/-- Lets go of the packets whose tick is not the newest. The ticks are listed for all
channels. -/
def dropBehind (terminals : Nat → Terminal σ) (newest : Nat) (ticks : List (Option Nat)) :
    Nat → List RxChannel → σ → Option (List RxChannel × σ)
  | _, [], s => some ([], s)
  | i, c :: cs, s => do
    let tick ← ticks[i]?
    let (c, s) := if tick = some newest then (c, s) else RxChannel.letGo (terminals i) (fun _ => true) c s
    let (cs, s) ← dropBehind terminals newest ticks (i + 1) cs s
    some (c :: cs, s)

/-- Writes the next `n` samples of the packet of a channel into a buffer, at a position, and
moves past them. -/
def advance [HostSample S] (terminal : Terminal σ) (format : WireFormat) (position n : Nat) (c : RxChannel)
    (b : List S) (s : σ) : Option (RxChannel × List S × σ) :=
  match c.held with
  | none => some (c, b, s)
  | some h => do
    let bytes ← unread format h
    let part ← slice b position (position + n)
    let b := splice b position (format.unpack bytes part).2
    let h := { h with offset := h.offset + n }
    if (← remaining h) = 0 then some ({ c with held := none }, b, terminal.recycle h.frame s)
    else some ({ c with held := some h }, b, s)

/-- Hands out the next `n` samples of each packet. -/
def advanceAll [HostSample S] (terminals : Nat → Terminal σ) (format : WireFormat) (position n : Nat) :
    Nat → List RxChannel → List (List S) → σ → Option (List RxChannel × List (List S) × σ)
  | i, c :: cs, b :: bs, s => do
    let (c, b, s) ← advance (terminals i) format position n c b s
    let (cs, bs, s) ← advanceAll terminals format position n (i + 1) cs bs s
    some (c :: cs, b :: bs, s)
  | _, cs, bs, s => some (cs, bs, s)

/-! ## The receiver -/

/-- Brings the channels to one tick. -/
def alignRounds (terminals : Nat → Terminal σ) (links : Nat) (format : WireFormat) (wait : Nat) :
    Nat → List RxChannel → σ → Option (Option Condition × List RxChannel × σ)
  | 0, cs, s =>
    let (cs, s) := RxChannel.dropWhere terminals (fun _ => true) 0 cs s
    some (some .misaligned, cs, s)
  | rounds + 1, cs, s => do
    match ← fetchAll terminals links format wait 0 cs.length cs s with
    | (some condition, cs, s) => some (some condition, cs, s)
    | (none, cs, s) => match Receiver.newestTick cs with
      | none => some (none, cs, s)
      | some newest =>
        if cs.any fun c => c.held.any (Held.behind newest) then do
          let (cs, s) ← dropBehind terminals newest (cs.map fun c => c.held.bind Held.tick?) 0 cs s
          alignRounds terminals links format wait rounds cs s
        else some (none, cs, s)

/-- Makes sure that every channel holds a packet and that all are at one tick. -/
def align (terminals : Nat → Terminal σ) (links wait : Nat) (r : Receiver) (s : σ) :
    Option (Option Condition × Receiver × σ) := do
  let rounds := r.channels.length * Receiver.roundsPerChannel
  let (condition, channels, s) ← alignRounds terminals links r.format wait rounds r.channels s
  let state := match condition with
    | some condition => r.state.after condition
    | none => r.state
  some (condition, { r with channels, state }, s)

/-- Hands out up to `most` samples of the packets held, into each buffer from a position
on. -/
def consume [HostSample S] (terminals : Nat → Terminal σ) (position most : Nat) (r : Receiver)
    (buffers : List (List S)) (s : σ) : Option (Portion × Receiver × List (List S) × σ) := do
  let counts ← (r.channels.filterMap (·.held)).mapM remaining
  let n := min (counts.min?.getD 0) most
  let first ← r.channels[0]?
  match first.held with
  | none => some (⟨{}, 0, 0, true⟩, r, buffers, s)
  | some lead =>
    let (channels, buffers, s) ← advanceAll terminals r.format position n 0 r.channels buffers s
    some (⟨lead.header, lead.offset, n, channels.all (·.held.isNone)⟩, { r with channels }, buffers, s)

/-- Goes on with further packets after a portion that ended at `total`. -/
def gather [HostSample S] (terminals : Nat → Terminal σ) (links wait count : Nat) :
    Nat → Portion → Nat → Receiver → List (List S) → RxMetadata → σ →
      Option (Portion × Nat × Receiver × List (List S) × RxMetadata × σ)
  | 0, last, total, r, buffers, md, s => some (last, total, r, buffers, md, s)
  | fuel + 1, last, total, r, buffers, md, s =>
    if last.exhausted && !last.header.endOfBurst && total < count then do
      match ← align terminals links wait r s with
      | (some condition, r, s) =>
        let r := if condition.code = .timeout then r else { r with deferred := some condition }
        some (last, total, r, buffers, md, s)
      | (none, r, s) =>
        let first ← r.channels[0]?
        if first.held.any Held.startsBurst then some (last, total, r, buffers, md, s)
        else do
          let room ← minus count total
          let (next, r, buffers, s) ← consume terminals total room r buffers s
          let total := total + next.count
          gather terminals links wait count fuel next total r buffers (Receiver.noteVector next total md) s
    else some (last, total, r, buffers, md, s)

/-- A call for no samples. -/
def poll (terminals : Nat → Terminal σ) (links wait : Nat) (r : Receiver) (md : RxMetadata) (s : σ) :
    Option (RxMetadata × Receiver × σ) := do
  match ← align terminals links wait r s with
  | (some condition, r, s) =>
    some (if condition.code = .timeout then md else condition.report r.rate md, r, s)
  | (none, r, s) =>
    let first ← r.channels[0]?
    match first.held with
    | none => some (md, r, s)
    | some lead =>
      let left ← remaining lead
      let md := r.describe lead.header lead.offset md
      if left = 0 then
        let (channels, s) := RxChannel.dropWhere terminals (fun _ => true) 0 r.channels s
        let ended := lead.header.endOfBurst
        some ({ md with endOfBurst := ended }, { r with channels, state := if ended then .idle else r.state }, s)
      else some ({ md with moreFragments := true }, r, s)

/-- A call for samples. -/
def deliver [HostSample S] (terminals : Nat → Terminal σ) (links : Nat) (r : Receiver) (buffers : List (List S))
    (count wait : Nat) (onePacket : Bool) (md : RxMetadata) (s : σ) : Option (Received S σ) := do
  match ← align terminals links wait r s with
  | (some condition, r, s) => some ⟨.ok 0, buffers, condition.report r.rate md, r, s⟩
  | (none, r, s) =>
    let (first, r, buffers, s) ← consume terminals 0 count r buffers s
    let md := Receiver.noteVector first first.count (r.describe first.header first.offset md)
    let fuel := if onePacket then 0 else r.patience terminals count s
    let (last, total, r, buffers, md, s) ←
      gather terminals links wait count fuel first first.count r buffers md s
    let ended := last.exhausted && last.header.endOfBurst
    some
      { outcome := .ok total, buffers
        metadata := { md with moreFragments := !last.exhausted, endOfBurst := ended }
        receiver := { r with state := if ended then .idle else r.state }
        surroundings := s }

/-- Receives up to `count` samples into each buffer. -/
def recv [HostSample S] (terminals : Nat → Terminal σ) (links : Nat) (r : Receiver) (buffers : List (List S))
    (count wait : Nat) (onePacket : Bool) (md : RxMetadata) (s : σ) : Option (Received S σ) :=
  if buffers.length ≠ links then
    some ⟨.error (.argument (.bufferCount links buffers.length)), buffers, md, r, s⟩
  else match buffers.find? (·.length < count) with
    | some short => some ⟨.error (.argument (.shortBuffer short.length count)), buffers, md, r, s⟩
    | none =>
      let md := md.reset
      match r.deferred with
      | some condition =>
        some ⟨.ok 0, buffers, condition.report r.rate md, { r with deferred := none }, s⟩
      | none =>
        if count = 0 then do
          let (md, r, s) ← poll terminals links wait r md s
          some ⟨.ok 0, buffers, md, r, s⟩
        else deliver terminals links r buffers count wait onePacket md s

end RadioStream.Checked
