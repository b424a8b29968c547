import RadioStream.Proofs.Receiver.Complete
import RadioStream.Proofs.Transmitter.Send
/-!
# The packets of a transmission

What the packets that a transmitter makes of one call look like to a receiver: their
samples add up to those of the call (`Transmitter.sum_outlinesOf`), only the first
may start a burst and only the last may end it, and vectors end where pieces do.
-/

namespace RadioStream

namespace Transmitter

variable {t : Transmitter} {md : TxMetadata} {count : Nat}

/-- The flags of a packet. -/
theorem flags_outlineOf (t : Transmitter) (md : TxMetadata) (count : Nat) (q : UInt16) (p : Piece) :
    let h := (t.outlineOf md count q p).header
    h.startOfBurst = (p.start == 0 && md.startOfBurst) ∧ h.endOfBurst = (p.stop == count && md.endOfBurst) ∧
      h.endOfVector = p.endsVector ∧ h.hasTime = (p.start == 0 && md.hasTime) := by
  exact t.flags_packetOf md count q p

theorem timestamp_outlineOf {q : UInt16} {p : Piece} (hp : p.start = 0) (ht : md.hasTime = true) :
    (t.outlineOf md count q p).header.timestamp = md.time.startTick t.rate :=
  timestamp_packetOf (q := q) hp ht

theorem sum_outlinesOf {most : Nat} {q : UInt16} {ps : List Piece} {start stop : Nat}
    (h : Piece.Tiles most start ps stop) : start + ((t.outlinesOf md count q ps).map (·.count)).sum = stop := by
  induction ps generalizing start q with
  | nil => exact h
  | cons p ps ih =>
    obtain ⟨rfl, hle, -, hr⟩ := h
    have := ih (q := q + 1) hr
    rw [outlinesOf, List.map_cons, List.sum_cons]
    show p.start + ((p.stop - p.start) + _) = stop
    omega

/-- Behind the first piece no burst starts, and only the last one may end it. -/
theorem continues_outlinesOf {most : Nat} {q : UInt16} {ps : List Piece} {start : Nat}
    (h : Piece.Tiles most start ps count) (hstart : 0 < start) (hpos : ∀ p ∈ ps, p.start < p.stop) :
    Continues (t.outlinesOf md count q ps) := by
  induction ps generalizing start q with
  | nil => trivial
  | cons p ps ih =>
    obtain ⟨rfl, hle, -, hr⟩ := h
    obtain ⟨hs, he, -, -⟩ := t.flags_outlineOf md count q p
    have hp := hpos p List.mem_cons_self
    have hlater : ∀ p' ∈ ps, p'.start < p'.stop := fun p' hp' => hpos p' (List.mem_cons_of_mem _ hp')
    refine ⟨?_, Nat.sub_pos_of_lt hp, fun hne => ?_, ih hr (by omega) hlater⟩
    · rw [hs, beq_false_of_ne (by omega), Bool.false_and]
    · rw [he, beq_false_of_ne (hr.ne_stop (fun hn => hne (by rw [hn]; rfl)) fun p' hp' =>
        hpos p' (List.mem_cons_of_mem _ hp')), Bool.false_and]

theorem vectorEnds_outlinesOf {most : Nat} {q : UInt16} {ps : List Piece} {start stop : Nat}
    (h : Piece.Tiles most start ps stop) :
    vectorEnds start (t.outlinesOf md count q ps) = Piece.vectorEnds ps := by
  induction ps generalizing start q with
  | nil => rfl
  | cons p ps ih =>
    obtain ⟨rfl, hle, -, hr⟩ := h
    obtain ⟨-, -, hv, -⟩ := t.flags_outlineOf md count q p
    have hcount : p.start + (t.outlineOf md count q p).count = p.stop := by
      show p.start + (p.stop - p.start) = p.stop
      omega
    rw [outlinesOf, vectorEnds, hv, hcount, ih hr, Piece.vectorEnds, Piece.vectorEnds, List.filter_cons]
    cases p.endsVector <;> rfl

/-- The last piece ends the burst if the transmission does. -/
theorem lastHeader_outlinesOf {most : Nat} {q : UInt16} {ps : List Piece} {start : Nat}
    (h : Piece.Tiles most start ps count) {header : Header}
    (hh : ps = [] → header.endOfBurst = md.endOfBurst) :
    (lastHeader header (t.outlinesOf md count q ps)).endOfBurst = md.endOfBurst := by
  induction ps generalizing start q header with
  | nil => exact hh rfl
  | cons p ps ih =>
    obtain ⟨rfl, hle, -, hr⟩ := h
    refine ih hr fun hn => ?_
    obtain ⟨-, he, -⟩ := t.flags_outlineOf md count q p
    subst hn
    obtain rfl : p.stop = count := hr
    rw [he, beq_self_eq_true, Bool.true_and]

/-- The first packet of a transmission, and those that follow. -/
theorem opens_outlinesOf {most : Nat} {q : UInt16} {p : Piece} {ps : List Piece}
    (h : Piece.Tiles most 0 (p :: ps) count) (hpos : ∀ p' ∈ p :: ps, p'.start < p'.stop) :
    Opens (t.outlineOf md count q p) (t.outlinesOf md count (q + 1) ps) := by
  obtain ⟨-, -, -, hr⟩ := h
  have hp := hpos p List.mem_cons_self
  have hps : ∀ p' ∈ ps, p'.start < p'.stop := fun p' hp' => hpos p' (List.mem_cons_of_mem _ hp')
  refine ⟨Nat.sub_pos_of_lt hp, fun hne => ?_, continues_outlinesOf hr (by omega) hps⟩
  obtain ⟨-, he, -, -⟩ := t.flags_outlineOf md count q p
  rw [he, beq_false_of_ne (hr.ne_stop (fun hn => hne (by rw [hn]; rfl)) hps), Bool.false_and]

end Transmitter

/-! ## What a call for a transmission reports -/

/-- Where vectors end among the samples of a transmission, each end once and in
order. -/
def TxMetadata.vectorEnds (md : TxMetadata) (count : Nat) : List Nat := (List.range' 1 count).filter (· ∈ md.eov)

/-- A receive call that was given `asked` reports what the sender of `count` samples
said of them. -/
structure RxMetadata.Mirrors (txRate rxRate : Float) (count : Nat) (tx : TxMetadata) (md asked : RxMetadata) :
    Prop where
  code : md.code = .none
  startOfBurst : md.startOfBurst = tx.startOfBurst
  endOfBurst : md.endOfBurst = tx.endOfBurst
  hasTime : md.hasTime = tx.hasTime
  time : tx.hasTime = true → md.time = Instant.ofTicks (max 0 (tx.time.toTicks txRate)) rxRate
  eov : md.eov.map (·.positions) = asked.eov.map fun e => (tx.vectorEnds count).take e.limit

/-- The tick of a start arrives, with the start of time for those before it. -/
theorem timeAt_startTick {h : Header} {time : Instant} {txRate : Float} (hh : h.timestamp = time.startTick txRate)
    (rxRate : Float) : Held.timeAt h 0 rxRate = Instant.ofTicks (max 0 (time.toTicks txRate)) rxRate := by
  rw [← Instant.ofCounter_startTick, ← hh]
  exact congrArg (Instant.ofTicks · rxRate) (Int.add_zero _)

/-- A call for exactly the samples of a transmission that waits returns it whole. -/
theorem Call.mirrors {t : Transmitter} {tx : TxMetadata} {count m : Nat} {plan : List Outline} {q : UInt16}
    {rxRate : Float} {onePacket : Bool} {md : RxMetadata} {ts ts' : List Track} {rep : RxReport} (hn : Numbered plan)
    (hC : Call t.format rxRate count onePacket md none ts rep ts') (hb : Between t.format plan m ts)
    (hplan : plan.drop m = t.outlinesOf tx count q (Piece.cut t.packetSamples tx.eov count))
    (hpos : 0 < t.packetSamples) (hcount : 0 < count)
    (hone : onePacket = true → (Piece.cut t.packetSamples tx.eov count).length = 1) :
    rep.count = count ∧ rep.metadata.Mirrors t.rate rxRate count tx md := by
  have htiles := Piece.tiles_cut hpos tx.eov count
  have hends := Piece.vectorEnds_cut hpos tx.eov count
  have hlong : ∀ p ∈ Piece.cut t.packetSamples tx.eov count, p.start < p.stop := fun p hp =>
    Piece.nonempty_of_mem_cutFrom hpos tx.eov count hp
  generalize Piece.cut t.packetSamples tx.eov count = pieces at *
  cases pieces with
  | nil =>
    -- no pieces cover no samples
    obtain rfl : 0 = count := htiles
    omega
  | cons p ps =>
    have hsum : 0 + ((t.outlinesOf tx count q (p :: ps)).map (·.count)).sum = count :=
      Transmitter.sum_outlinesOf htiles
    have hvectors : vectorEnds 0 (t.outlinesOf tx count q (p :: ps)) = _ := Transmitter.vectorEnds_outlinesOf htiles
    obtain ⟨hs, he, -, ht⟩ := t.flags_outlineOf tx count q p
    have hopens : Opens (t.outlineOf tx count q p) (t.outlinesOf tx count (q + 1) ps) :=
      Transmitter.opens_outlinesOf htiles hlong
    obtain ⟨hstart, -, -, hr⟩ := htiles
    rw [Transmitter.outlinesOf, List.map_cons, List.sum_cons, Nat.zero_add] at hsum
    obtain ⟨hcount', -, hmd⟩ := hC.complete hn hb hplan hsum hopens fun h1 => by
      have := hone h1
      rw [List.length_cons] at this
      rw [List.eq_nil_of_length_eq_zero (by omega : ps.length = 0)]
      rfl
    have hlast : (lastHeader (t.outlineOf tx count q p).header (t.outlinesOf tx count (q + 1) ps)).endOfBurst =
        tx.endOfBurst := by
      refine Transmitter.lastHeader_outlinesOf hr fun hnil => ?_
      subst hnil
      obtain rfl : p.stop = count := hr
      rw [he, beq_self_eq_true, Bool.true_and]
    rw [hstart, beq_self_eq_true, Bool.true_and] at hs ht
    refine ⟨hcount', ?_, ?_, ?_, ?_, ?_, ?_⟩ <;> rw [hmd]
    · rfl
    · exact hs
    · exact hlast
    · exact ht
    · exact fun htx => timeAt_startTick (Transmitter.timestamp_outlineOf hstart htx) rxRate
    · dsimp only
      rw [← Transmitter.outlinesOf, hvectors, hends, RxMetadata.reset, Option.map_map, Option.map_map]
      cases md.eov with
      | none => rfl
      | some e =>
        exact congrArg some (EovPositions.positions_pushAll _ e.clear)

end RadioStream
