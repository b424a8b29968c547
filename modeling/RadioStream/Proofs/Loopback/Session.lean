import RadioStream.Proofs.Loopback.Plan
/-!
# From a transmitter to a receiver

A transmitter and a receiver at the two ends of some links. `Coupled` is the invariant
of any interleaving of their calls: the frames sent so far carry a plan, the same on
every channel, and the receiver goes through it in lockstep. What was received is
then the begin of what was sent, and a call for a transmission that waits alone
returns it whole (`loopback_identity`).
-/

namespace RadioStream

/-! ## Sessions -/

/-- What a send call gives its caller, and the buffers that it was given. -/
structure TxReturn (S : Type) where
  outcome : Except Error Nat
  buffers : List (List S)

/-- The samples that a call reports as sent on a channel. -/
def TxReturn.samples {S : Type} (y : TxReturn S) (i : Nat) : List S :=
  match y.outcome with
  | .ok n => (y.buffers[i]?.getD []).take n
  | .error _ => []

theorem TxReturn.samples_of_ok {S : Type} {buffers : List (List S)} {n i : Nat} {b : List S}
    (h : buffers[i]? = some b) :
    (TxReturn.mk (.ok n) buffers).samples i = b.take n := by
  simp [samples, h]

/-- A transmitter at the opposite ends of the links of a receiver, with what its calls
have returned. -/
structure Loopback (S S' : Type) where
  transmitter : Transmitter
  receiving : RxSession S' (List Link)
  sends : List (TxReturn S) := []

/-- A call of the transmitter or of the receiver. -/
inductive LoopbackAction (S S' : Type) where
  | send (buffers : List (List S)) (count wait : Nat) (md : TxMetadata)
  | recv (buffers : List (List S')) (count wait : Nat) (onePacket : Bool) (md : RxMetadata)

/-- The action is not a receive call for no samples. -/
def LoopbackAction.Asks {S S' : Type} : LoopbackAction S S' → Prop
  | .send .. => True
  | .recv _ count _ _ _ => 0 < count

namespace Loopback

variable {S S' : Type}

/-- All samples that were reported as sent on a channel. -/
def sent (x : Loopback S S') (i : Nat) : List S := x.sends.flatMap (·.samples i)

theorem sent_concat {x x' : Loopback S S'} {y : TxReturn S} (h : x'.sends = x.sends ++ [y]) (i : Nat) :
    x'.sent i = x.sent i ++ y.samples i := by
  rw [sent, h, List.flatMap_append, List.flatMap_singleton, sent]

/-- No packet waits on a link or is held. -/
def Idle (e : End) (x : Loopback S S') : Prop :=
  (∀ l ∈ x.receiving.surroundings, l.pending e = 0) ∧ ∀ c ∈ x.receiving.receiver.channels, c.held.isNone

variable [HostSample S] [HostSample S']

/-- A call, with the receiver at an end of the links. -/
def step (e : End) (x : Loopback S S') : LoopbackAction S S' → Loopback S S'
  | .send buffers count wait md =>
    let (outcome, transmitter, links) :=
      x.transmitter.send (Terminal.atEnd e.other) buffers count wait md x.receiving.surroundings
    { transmitter, receiving := { x.receiving with surroundings := links }
      sends := x.sends ++ [⟨outcome, buffers⟩] }
  | .recv buffers count wait onePacket md =>
    { x with receiving := x.receiving.step (Terminal.atEnd e) (.recv buffers count wait onePacket md) }

theorem sends_step (e : End) (x : Loopback S S') (buffers : List (List S)) (count wait : Nat) (md : TxMetadata) :
    (x.step e (.send buffers count wait md)).sends = x.sends ++
      [⟨(x.transmitter.send (Terminal.atEnd e.other) buffers count wait md x.receiving.surroundings).1, buffers⟩] := rfl

def run (e : End) (x : Loopback S S') (as : List (LoopbackAction S S')) : Loopback S S' := as.foldl (step e) x

end Loopback

/-- The sample that arrives when a sample is sent. One of sixteen bits arrives as it is
in `sc16`, and without its low bytes in `sc8`. -/
def WireFormat.arrives {S S' : Type} [HostSample S] [HostSample S'] (format : WireFormat) (v : S) : S' :=
  HostSample.ofRaw (format.carried (HostSample.toRaw v))

/-- A receive call reports no bad packet, no misaligned channels and none out of
sequence. -/
def RxMetadata.Clean (md : RxMetadata) : Prop :=
  md.code ≠ .badPacket ∧ md.code ≠ .alignment ∧ md.outOfSequence = false

theorem RxMetadata.clean_silence (rate : Float) (md : RxMetadata) :
    (Condition.silence.report rate md.reset).Clean := ⟨nofun, nofun, rfl⟩

/-! ## The invariant -/

section Coupling

variable {S S' : Type} [HostSample S] [HostSample S']

/-- The frames that a transmitter has sent carry a plan, and the receiver has come to
a place in it. -/
structure Coupled (e : End) (t₀ : Transmitter) (rate : Float) (plan : List Outline) (m o : Nat) (ts : List Track)
    (x : Loopback S S') : Prop where
  transmitter : x.transmitter = { t₀ with sequences := List.replicate ts.length (UInt16.ofNat plan.length) }
  format : x.receiving.receiver.format = t₀.format
  rate : x.receiving.receiver.rate = rate
  described : Described (linkLedger e t₀.room) x.receiving ts
  deferred : x.receiving.receiver.deferred = none
  numbers : ∀ j out, plan[j]? = some out → out.header.sequence = UInt16.ofNat j
  inStep : ∀ t ∈ ts, InStep t₀.format plan m o t
  sent : ∀ i t, ts[i]? = some t → ∀ fs ∈ t.sent,
    samplesOf (packetsIn t₀.format fs) = (x.sent i).map fun v => t₀.format.carried (HostSample.toRaw v)
  clean : ∀ y ∈ x.receiving.returns, ∀ n, y.outcome = .ok n → y.metadata.Clean

variable {e : End} {t₀ : Transmitter} {rate : Float} {plan : List Outline} {m o : Nat} {ts : List Track}
  {x : Loopback S S'}

theorem numbered_of_numbers (h : ∀ j out, plan[j]? = some out → out.header.sequence = UInt16.ofNat j) :
    Numbered plan := by
  rw [Numbered, List.isChain_iff_getElem]
  intro j hj
  rw [h j plan[j] (List.getElem?_eq_getElem _), h (j + 1) plan[j + 1] (List.getElem?_eq_getElem _), UInt16.ofNat_add]
  rfl

/-- What is sent between two calls of a receiver is added to the books. -/
theorem Described.post {β : Type} {x : RxSession S' (List Link)} {room : Nat}
    (h : Described (linkLedger e room) x ts) {f : β → List Bytes} {bs : List β} (hl : bs.length = ts.length)
    {ls : List Link} (hT : Ledgered e room 0 (Account.postAll f (ts.map (·.account)) bs) ls) :
    Described (linkLedger e room) { x with surroundings := ls } (Track.postAll f ts bs) where
  channels := by rw [Track.map_postAll _ (fun _ _ => rfl) hl]; exact h.channels
  nonempty := Track.postAll_ne_nil hl h.nonempty
  sound t ht := by
    obtain ⟨u, hu, b, -, rfl⟩ := Track.mem_postAll ht
    exact (h.sound u hu).post _
  fresh t ht := by
    obtain ⟨u, hu, b, -, rfl⟩ := Track.mem_postAll ht
    exact h.fresh u hu
  tells := by rw [Track.account_postAll]; exact hT
  returned i t ht := by
    obtain ⟨u, b, hu, -, rfl⟩ := Track.postAll_get ht
    exact h.returned i u hu

namespace Coupled

theorem fits (h : Coupled e t₀ rate plan m o ts x) :
    x.transmitter.Fits t₀.room (ts.map (·.account)).length (UInt16.ofNat plan.length) := by
  rw [h.transmitter, List.length_map]
  exact ⟨rfl, le_rfl⟩

/-- A send call puts the frames of its first pieces on every link. -/
theorem exists_frames (h : Coupled e t₀ rate plan m o ts x) (hpos : 0 < t₀.packetSamples)
    {buffers : List (List S)} {count : Nat} (wait : Nat) (md : TxMetadata) (hl : buffers.length = ts.length)
    (hlong : ∀ b ∈ buffers, count ≤ b.length) :
    ∃ done k ls', x.step e (.send buffers count wait md) =
        { transmitter :=
            { t₀ with sequences := List.replicate ts.length (UInt16.ofNat plan.length + UInt16.ofNat done.length) }
          receiving := { x.receiving with surroundings := ls' }
          sends := x.sends ++ [⟨.ok k, buffers⟩] } ∧
      Described (linkLedger e t₀.room) { x.receiving with surroundings := ls' }
        (Track.postAll (fun b => t₀.framesOf md count b (UInt16.ofNat plan.length) done) ts buffers) ∧
      Piece.Tiles t₀.packetSamples 0 done k ∧ k ≤ count ∧
      (0 < count → k = count → done = Piece.cut t₀.packetSamples md.eov count) := by
  obtain ⟨done, k, ls', he, hb, htiles, hk, hall⟩ :=
    Transmitter.send_spec wait md h.fits (by rw [h.transmitter]; exact hpos)
    h.described.tells (by rw [List.length_map, hl]) hlong
  rw [h.transmitter] at he hb htiles hall
  simp only [Transmitter.framesOf_sequences] at hb
  exact ⟨done, k, ls', by rw [Loopback.step, h.transmitter, he, List.length_map], h.described.post hl hb, htiles,
    hk, hall⟩

/-- A send call adds the packets of its pieces to the plan, the same on every
channel. -/
theorem send (h : Coupled e t₀ rate plan m o ts x) (hpos : 0 < t₀.packetSamples)
    (hfit : t₀.format.PayloadFits t₀.packetSamples) {buffers : List (List S)} {count : Nat} (wait : Nat)
    (md : TxMetadata) (hl : buffers.length = ts.length) (hlong : ∀ b ∈ buffers, count ≤ b.length) :
    ∃ done k, Piece.Tiles t₀.packetSamples 0 done k ∧
      (0 < count → k = count → done = Piece.cut t₀.packetSamples md.eov count) ∧
      (x.step e (.send buffers count wait md)).sends = x.sends ++ [⟨.ok k, buffers⟩] ∧
      Coupled e t₀ rate (plan ++ t₀.outlinesOf md count (UInt16.ofNat plan.length) done) m o
        (Track.postAll (fun b => t₀.framesOf md count b (UInt16.ofNat plan.length) done) ts buffers)
        (x.step e (.send buffers count wait md)) := by
  obtain ⟨done, k, ls', hstep, hd, htiles, hk, hall⟩ := h.exists_frames hpos wait md hl hlong
  rw [hstep]
  refine ⟨done, k, htiles, hall, rfl, ?_, h.format, h.rate, hd, h.deferred, ?_, ?_, ?_, h.clean⟩
  · rw [Track.length_postAll hl, List.length_append, Transmitter.length_outlinesOf, UInt16.ofNat_add]
  · intro j out hout
    rw [List.getElem?_append] at hout
    split at hout
    · exact h.numbers j out hout
    · next hge =>
      -- the new packets go on where the numbers of the plan ended, modulo `2 ^ 16`
      obtain ⟨p, -, rfl⟩ := Transmitter.outlinesOf_get hout
      show UInt16.ofNat plan.length + UInt16.ofNat (j - plan.length) = UInt16.ofNat j
      rw [← UInt16.ofNat_add, Nat.add_sub_cancel' (Nat.le_of_not_lt hge)]
  · intro t ht
    obtain ⟨u, hu, b, hb, rfl⟩ := Track.mem_postAll ht
    exact (h.inStep u hu).post (Transmitter.outlines_framesOf htiles (hk.trans (hlong b hb)) hfit)
  · intro i t ht fs hfs
    obtain ⟨u, b, hu, hb, rfl⟩ := Track.postAll_get ht
    obtain ⟨gs, hgs, rfl⟩ := Option.map_eq_some_iff.1 hfs
    rw [packetsIn_append, samplesOf_append, h.sent i u hu gs hgs,
      Transmitter.samplesOf_framesOf htiles (hk.trans (hlong b (List.mem_of_getElem? hb))) hfit, List.drop_zero,
      Nat.sub_zero, ← List.map_append, Loopback.sent, Loopback.sent, List.flatMap_append, List.flatMap_singleton,
      TxReturn.samples_of_ok hb]

/-- A send call that the arguments forbid changes nothing. -/
theorem send_misuse (h : Coupled e t₀ rate plan m o ts x) {buffers : List (List S)} {count : Nat} (wait : Nat)
    (md : TxMetadata) (hbad : ¬(buffers.length = ts.length ∧ ∀ b ∈ buffers, count ≤ b.length)) :
    ∃ err, (x.step e (.send buffers count wait md)).sends = x.sends ++ [⟨.error err, buffers⟩] ∧
      Coupled e t₀ rate plan m o ts (x.step e (.send buffers count wait md)) := by
  have hbad' : ¬(buffers.length = x.transmitter.sequences.length ∧ ∀ b ∈ buffers, count ≤ b.length) := by
    rwa [h.transmitter, List.length_replicate]
  obtain ⟨err, he⟩ := Transmitter.send_misuse (Terminal.atEnd e.other) wait md x.receiving.surroundings hbad'
  have hstep : x.step e (.send buffers count wait md) =
      { x with sends := x.sends ++ [⟨.error err, buffers⟩] } := by
    rw [Loopback.step, he]
  rw [hstep]
  refine ⟨err, rfl, h.transmitter, h.format, h.rate, h.described, h.deferred, h.numbers, h.inStep, ?_, h.clean⟩
  intro i t ht fs hfs
  rw [h.sent i t ht fs hfs, Loopback.sent, Loopback.sent, List.flatMap_append, List.flatMap_singleton]
  exact congrArg _ (List.append_nil _).symm

/-- A receive call that does what `Call` says goes on through the plan. -/
theorem call (h : Coupled e t₀ rate plan m o ts x) (st : StreamState) {count : Nat} {onePacket : Bool}
    {md : RxMetadata} {rep : RxReport} {ts' : List Track} {s' : List Link} {y : RxReturn S'} (hcount : 0 < count)
    (hC : Call t₀.format rate count onePacket md none ts rep ts') (hr : Ready t₀.format rep.count ts')
    (hy : y.Tells rep ts') (hT : (linkLedger e t₀.room).Tells (ts'.map (·.account)) s') :
    ∃ m' o', Coupled e t₀ rate plan m' o' (ts'.map Track.turn) { x with
      receiving := ⟨{ x.receiving.receiver with channels := ts'.map (·.channel), state := st, deferred := rep.kept },
        s', x.receiving.returns ++ [y]⟩ } := by
  have hI := lockstep_invariant t₀.format (numbered_of_numbers h.numbers)
  have hj : ts ≠ [] ∧ ∃ m o, ∀ t ∈ ts, InStep t₀.format plan m o t := ⟨h.described.nonempty, m, o, h.inStep⟩
  obtain ⟨-, m', o', hin⟩ := hI.call (fun hz => by omega) hC (fun _ _ => trivial) hj
  obtain ⟨hkept, hreport⟩ := hI.conditions hcount hC (fun _ _ => trivial) hj (by simp)
  have hlen : (ts'.map Track.turn).length = ts.length := by rw [List.length_map, hC.length]
  refine ⟨m', o', ?_, h.format, h.rate, h.described.turn hC.earlier (h.format ▸ hr) hy hT, ?_, h.numbers, ?_, ?_,
    ?_⟩
  · rw [hlen]
    exact h.transmitter
  · -- only silence is met, and that is not kept
    refine Option.eq_none_iff_forall_ne_some.2 fun c hc => ?_
    have hkeeps := hC.keeps c hc
    rw [hkept c hc] at hkeeps
    cases hkeeps
  · intro t ht
    obtain ⟨u, hu, rfl⟩ := List.mem_map.1 ht
    exact (hin u hu).turn
  · intro i t ht fs hfs
    rw [List.getElem?_map, Option.map_eq_some_iff] at ht
    obtain ⟨u, hu, rfl⟩ := ht
    -- a receive call sends nothing
    obtain ⟨t, ht, het⟩ := Track.exists_of_map_eq hC.sent hu
    exact h.sent i t ht fs (het.trans hfs)
  · intro z hz n hn
    rcases List.mem_append.1 hz with hz | hz
    · exact h.clean z hz n hn
    · obtain rfl := List.mem_singleton.1 hz
      rw [hy.metadata]
      rcases hreport with ⟨hcode, hseq⟩ | ⟨-, c, rfl, hmd⟩
      · exact ⟨by rw [hcode]; decide, by rw [hcode]; decide, hseq⟩
      · rw [hmd]
        exact RxMetadata.clean_silence rate md

/-- A receive call goes on through the plan, or does nothing. -/
theorem recv (h : Coupled e t₀ rate plan m o ts x) (buffers : List (List S')) {count : Nat} (wait : Nat)
    (onePacket : Bool) (md : RxMetadata) (hcount : 0 < count) :
    ∃ m' o' ts', ts'.length = ts.length ∧
      Coupled e t₀ rate plan m' o' ts' (x.step e (.recv buffers count wait onePacket md)) := by
  rcases h.described.recv buffers count wait onePacket md with
    ⟨err, he⟩ | ⟨rep, ts', st, s', y, he, hC, hr, hy, hT⟩
  · rw [Loopback.step, he]
    refine ⟨m, o, ts, rfl, h.transmitter, h.format, h.rate, h.described.misuse err buffers md, h.deferred, h.numbers,
      h.inStep, h.sent, fun z hz n hn => ?_⟩
    rcases List.mem_append.1 hz with hz | hz
    · exact h.clean z hz n hn
    · obtain rfl := List.mem_singleton.1 hz
      cases hn
  · rw [h.deferred, h.format, h.rate] at hC
    rw [h.format] at hr
    obtain ⟨m', o', h'⟩ := h.call st hcount hC hr hy hT
    rw [Loopback.step, he]
    exact ⟨m', o', ts'.map Track.turn, by rw [List.length_map, hC.length], h'⟩

end Coupled

end Coupling

end RadioStream
