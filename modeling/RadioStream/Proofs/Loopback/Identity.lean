import RadioStream.Proofs.Loopback.Session
/-!
# What is sent is what is received

A new transmitter and a new receiver at the ends of new links are coupled, and every
call keeps them so (`Coupled.run`). So whatever the order of the calls, what was
received is the begin of what was sent (`Coupled.received`). After a transmission
into idle links, a call for its samples returns it whole (`Coupled.mirrored`).
-/

namespace RadioStream

/-! ## New links -/

/-- New links of some geometries, with a new transmitter and a new receiver at their
opposite ends. -/
def Loopback.new {S S' : Type} (e : End) (gs : List Geometry) (format : WireFormat) (txRate rxRate : Float)
    (txSamples rxSamples : Nat) : Except Error (Loopback S S') := do
  let links ← gs.mapM Link.new
  let transmitter ← Transmitter.new (links.map fun l => (l.geometry e.other).sendFrameSize) format txRate txSamples
  let receiver ← Receiver.new (links.map fun l => (l.geometry e).recvFrameSize) format rxRate rxSamples
  return { transmitter, receiving := { receiver, surroundings := links } }

theorem Loopback.of_new {S S' : Type} {e : End} {gs : List Geometry} {format : WireFormat} {txRate rxRate : Float}
    {txSamples rxSamples : Nat} {x : Loopback S S'}
    (h : Loopback.new e gs format txRate rxRate txSamples rxSamples = .ok x) :
    ∃ links t r, gs.mapM Link.new = .ok links ∧
      Transmitter.new (links.map fun l => (l.geometry e.other).sendFrameSize) format txRate txSamples = .ok t ∧
      Receiver.new (links.map fun l => (l.geometry e).recvFrameSize) format rxRate rxSamples = .ok r ∧
      x = { transmitter := t, receiving := { receiver := r, surroundings := links } } := by
  unfold Loopback.new at h
  cases hl : gs.mapM Link.new with
  | error err => simp [hl, bind, Except.bind] at h
  | ok links =>
    cases ht : Transmitter.new (links.map fun l => (l.geometry e.other).sendFrameSize) format txRate txSamples with
    | error err => simp [hl, ht, bind, Except.bind] at h
    | ok t =>
      cases hr : Receiver.new (links.map fun l => (l.geometry e).recvFrameSize) format rxRate rxSamples with
      | error err => simp [hl, ht, hr, bind, Except.bind] at h
      | ok r =>
        simp only [hl, ht, hr, bind, Except.bind, pure, Except.pure, Except.ok.injEq] at h
        exact ⟨links, t, r, rfl, ht, hr, h.symm⟩

section Identity

variable {S S' : Type} [HostSample S] [HostSample S'] {e : End} {gs : List Geometry} {format : WireFormat}
  {txRate rxRate : Float} {txSamples rxSamples : Nat} {x : Loopback S S'}

/-- The books of new links. -/
theorem Ledgered.of_new {room : Nat} {ls : List Link} (h : gs.mapM Link.new = .ok ls)
    (hroom : ∀ l ∈ ls, room ≤ (l.geometry e.other).sendFrameSize) :
    Ledgered e room 0 (List.replicate gs.length { sent := some [] }) ls := by
  induction gs generalizing ls with
  | nil =>
    cases h
    exact .nil
  | cons g gs ih =>
    rw [List.mapM_cons] at h
    cases hg : Link.new g with
    | error err => simp [hg, bind, Except.bind] at h
    | ok l =>
      cases hr : gs.mapM Link.new with
      | error err => simp [hg, hr, bind, Except.bind] at h
      | ok ls' =>
        simp only [hg, hr, bind, Except.bind, pure, Except.pure, Except.ok.injEq] at h
        subst h
        exact .cons (Link.books_of_new hg (hroom l List.mem_cons_self))
          (ih hr fun l' h => hroom l' (List.mem_cons_of_mem _ h))

/-- Before the first call nothing was sent. -/
theorem Coupled.start (hx : Loopback.new e gs format txRate rxRate txSamples rxSamples = .ok x) :
    Coupled e x.transmitter rxRate [] 0 0 (List.replicate gs.length { sent := some [] }) x := by
  obtain ⟨links, t, r, hlinks, ht, hr, rfl⟩ := Loopback.of_new hx
  obtain ⟨-, hformat, -, hseq, hroom⟩ := Transmitter.of_new ht
  obtain ⟨hne, rfl⟩ := Receiver.eq_of_new hr
  have hbooks := Ledgered.of_new hlinks fun l hl => hroom _ (List.mem_map_of_mem hl)
  have hlen : gs.length = links.length := by simpa using hbooks.length_eq
  rw [List.map_map, Function.comp_def, List.map_const', ← hlen] at hseq
  have hblank : ∀ t' ∈ List.replicate gs.length ({ sent := some [] } : Track), t' = { sent := some [] } :=
    fun t' ht' => List.eq_of_mem_replicate ht'
  refine ⟨?_, hformat.symm, rfl, ⟨?_, ?_, ?_, ?_, ?_, ?_⟩, rfl, ?_, ?_, ?_, ?_⟩
  · rw [List.length_replicate, List.length_nil, show UInt16.ofNat 0 = 0 from rfl, ← hseq]
  · simp [hlen, Function.comp_def]
  · rw [ne_eq, List.map_eq_nil_iff] at hne
    rwa [ne_eq, List.replicate_eq_nil_iff, hlen, List.length_eq_zero_iff]
  · intro t' ht'
    rw [hblank t' ht']
    exact ⟨rfl, by simp⟩
  · intro t' ht'
    rw [hblank t' ht']
  · rw [List.map_replicate]
    exact hbooks
  · intro i t' ht'
    rw [hblank t' (List.mem_of_getElem? ht')]
    rfl
  · intro j out hout
    cases hout
  · intro t' ht'
    rw [hblank t' ht']
    exact ⟨⟨rfl, by simp⟩, rfl, ⟨[], rfl, List.prefix_rfl, rfl⟩, rfl, rfl⟩
  · intro i t' ht' fs hfs
    rw [hblank t' (List.mem_of_getElem? ht')] at hfs
    cases hfs
    rfl
  · intro y hy
    cases hy

/-- Calls in any order keep a transmitter and a receiver coupled. -/
theorem Coupled.run {t₀ : Transmitter} {plan : List Outline} {m o : Nat} {ts : List Track}
    (h : Coupled e t₀ rxRate plan m o ts x) (hpos : 0 < t₀.packetSamples)
    (hfit : t₀.format.PayloadFits t₀.packetSamples) (as : List (LoopbackAction S S'))
    (has : ∀ a ∈ as, a.Asks) :
    ∃ plan m o ts', ts'.length = ts.length ∧ Coupled e t₀ rxRate plan m o ts' (x.run e as) := by
  induction as generalizing x plan m o ts with
  | nil => exact ⟨plan, m, o, ts, rfl, h⟩
  | cons a as ih =>
    have has' : ∀ a ∈ as, a.Asks := fun a ha => has a (List.mem_cons_of_mem _ ha)
    show ∃ plan m o ts', ts'.length = ts.length ∧ Coupled e t₀ rxRate plan m o ts' ((x.step e a).run e as)
    cases a with
    | send buffers count wait md =>
      by_cases hb : buffers.length = ts.length ∧ ∀ b ∈ buffers, count ≤ b.length
      · obtain ⟨done, k, -, -, -, h'⟩ := h.send hpos hfit wait md hb.1 hb.2
        obtain ⟨plan', m', o', ts', hl, hc⟩ := ih h' has'
        exact ⟨plan', m', o', ts', by rw [hl, Track.length_postAll hb.1], hc⟩
      · obtain ⟨err, -, h'⟩ := h.send_misuse wait md hb
        exact ih h' has'
    | recv buffers count wait onePacket md =>
      obtain ⟨m', o', ts', hl, h'⟩ := h.recv buffers wait onePacket md (has _ List.mem_cons_self)
      obtain ⟨plan', m'', o'', ts'', hl', hc⟩ := ih h' has'
      exact ⟨plan', m'', o'', ts'', hl'.trans hl, hc⟩

/-! ## What was received -/

section Received

variable {t₀ : Transmitter} {rate : Float} {plan : List Outline} {m o : Nat} {ts : List Track}

/-- What was received on a channel is the begin of what was sent on it. The channels
are at the same place. -/
theorem Coupled.received (h : Coupled e t₀ rate plan m o ts x) {i : Nat} (hi : i < ts.length) :
    (x.receiving.returned i).length = reached plan m o ∧
      x.receiving.returned i <+: (x.sent i).map t₀.format.arrives := by
  have ht : ts[i]? = some ts[i] := List.getElem?_eq_getElem hi
  have hmem : ts[i] ∈ ts := List.getElem_mem hi
  have htotal : ts[i].total = ts[i].earlier := by rw [Track.total, h.described.fresh _ hmem, List.append_nil]
  have hin := h.inStep _ hmem
  have hlen := hin.length_total
  obtain ⟨fs, hfs, hp⟩ := hin.total_sent
  rw [htotal] at hlen hp
  rw [h.described.returned i _ ht]
  refine ⟨by rw [List.length_map, hlen], ?_⟩
  rw [h.sent i _ ht fs hfs] at hp
  have := hp.map (HostSample.ofRaw (σ := S'))
  rw [List.map_map] at this
  exact this

/-- Between idle ends nothing is on its way. -/
theorem Coupled.drained (h : Coupled e t₀ rate plan m o ts x) (hidle : x.Idle e) {t : Track} (ht : t ∈ ts) :
    t.channel.held = none ∧ t.sent = some t.taken := by
  constructor
  · have hc : t.channel ∈ x.receiving.receiver.channels := by
      rw [h.described.channels]
      exact List.mem_map_of_mem ht
    simpa using hidle.2 _ hc
  · obtain ⟨before, after, rfl⟩ := List.append_of_mem ht
    have hT : Ledgered e t₀.room 0 ((before ++ t :: after).map (·.account)) x.receiving.surroundings :=
      h.described.tells
    rw [List.map_append, List.map_cons] at hT
    obtain ⟨b, l, c, hls, -, hb, -⟩ := hT.exists_link
    have hz : (l.inbound e).waiting.items.length = 0 := hidle.1 l (by simp [hls])
    have hs := hb.sent
    rw [List.eq_nil_of_length_eq_zero hz, List.map_nil, List.append_nil] at hs
    exact hs

/-- Between idle ends the plan is done, and all that was sent was received. -/
theorem Coupled.between (h : Coupled e t₀ rate plan m o ts x) (hidle : x.Idle e) :
    Between t₀.format plan plan.length ts := by
  refine ⟨h.described.nonempty, fun t ht => ?_⟩
  obtain ⟨hheld, hsent⟩ := h.drained hidle ht
  have hin := h.inStep t ht
  obtain ⟨hm, rfl⟩ := hin.of_not_held hheld
  obtain ⟨fs, hfs, -, hc⟩ := hin.log
  rw [hsent] at hfs
  cases hfs
  rw [← hc.length_eq, hm]
  exact ⟨hin, hheld⟩

theorem Coupled.received_all (h : Coupled e t₀ rate plan m o ts x) (hidle : x.Idle e) {i : Nat} (hi : i < ts.length) :
    x.receiving.returned i = (x.sent i).map t₀.format.arrives := by
  have ht : ts[i]? = some ts[i] := List.getElem?_eq_getElem hi
  obtain ⟨hheld, hsent⟩ := h.drained hidle (List.getElem_mem hi)
  have hl := (h.inStep _ (List.getElem_mem hi)).lossless
  rw [Track.Lossless, Track.unread_of_not_held hheld, List.append_nil, Track.total,
    h.described.fresh _ (List.getElem_mem hi), List.append_nil, h.sent i _ ht _ hsent] at hl
  rw [h.described.returned i _ ht, hl, List.map_map]
  rfl

/-- More packets of the plan may be sent to channels that wait. -/
theorem Between.post {β : Type} (h : Between format plan m ts) {plan' : List Outline} {f : β → List Bytes}
    {bs : List β} (hl : bs.length = ts.length) (hf : ∀ b ∈ bs, Carries format plan' (f b)) :
    Between format (plan ++ plan') m (Track.postAll f ts bs) := by
  refine ⟨Track.postAll_ne_nil hl h.1, fun t ht => ?_⟩
  obtain ⟨u, hu, b, hb, rfl⟩ := Track.mem_postAll ht
  exact ⟨(h.2 u hu).1.post (hf b hb), (h.2 u hu).2⟩

/-- A receive call returns a transmission of `count` samples whole. -/
structure RxReturn.Mirrors (format : WireFormat) (txRate rxRate : Float) (count : Nat) (buffers : List (List S))
    (tx : TxMetadata) (y : RxReturn S') (asked : RxMetadata) : Prop where
  outcome : y.outcome = .ok count
  samples : ∀ i b, buffers[i]? = some b → y.samples i = (b.take count).map format.arrives
  metadata : y.metadata.Mirrors txRate rxRate count tx asked

/-- After a transmission into idle links, a call for its samples returns it whole. -/
theorem Coupled.mirrored (h : Coupled e t₀ rate plan m o ts x) (hidle : x.Idle e) (hpos : 0 < t₀.packetSamples)
    (hfit : t₀.format.PayloadFits t₀.packetSamples) {buffers : List (List S)} {count wait : Nat}
    {tx : TxMetadata} (hcount : 0 < count)
    (hsent : (x.step e (.send buffers count wait tx)).sends = x.sends ++ [⟨.ok count, buffers⟩])
    (buffers' : List (List S')) (wait' : Nat) (onePacket : Bool) (asked : RxMetadata)
    (hl' : buffers'.length = ts.length) (hlong' : ∀ b ∈ buffers', count ≤ b.length)
    (hone : onePacket = true → (Piece.cut t₀.packetSamples tx.eov count).length = 1) :
    ∃ y, ((x.step e (.send buffers count wait tx)).step e
        (.recv buffers' count wait' onePacket asked)).receiving.returns =
        x.receiving.returns ++ [y] ∧ y.Mirrors t₀.format t₀.rate rate count buffers tx asked := by
  by_cases hb : buffers.length = ts.length ∧ ∀ b ∈ buffers, count ≤ b.length
  · obtain ⟨hl, hlong⟩ := hb
    obtain ⟨done, k, htiles, hall, hsends, h'⟩ := h.send hpos hfit wait tx hl hlong
    rw [hsent] at hsends
    -- the call reported all samples, so it has sent all pieces
    obtain rfl : count = k := by simpa using hsends
    obtain rfl := hall hcount rfl
    have hreturns : (x.step e (.send buffers count wait tx)).receiving.returns = x.receiving.returns := rfl
    have hlen := Track.length_postAll (f := fun b => t₀.framesOf tx count b (UInt16.ofNat plan.length)
      (Piece.cut t₀.packetSamples tx.eov count)) hl
    have hcarries : ∀ b ∈ buffers, Carries t₀.format
        (t₀.outlinesOf tx count (UInt16.ofNat plan.length) (Piece.cut t₀.packetSamples tx.eov count))
        (t₀.framesOf tx count b (UInt16.ofNat plan.length) (Piece.cut t₀.packetSamples tx.eov count)) := fun b hb =>
      Transmitter.outlines_framesOf htiles (hlong b hb) hfit
    have hbt := (h.between hidle).post hl hcarries
    generalize x.step e (.send buffers count wait tx) = x' at *
    obtain ⟨rep, ts', st, s', y, he, hC, hr, hy, hT⟩ := h'.described.recv_allowed wait' onePacket asked
      (by rw [hlen, hl']) hlong'
    rw [h'.deferred, h'.format, h'.rate] at hC
    rw [h'.format] at hr
    obtain ⟨hrep, hmd⟩ := hC.mirrors (numbered_of_numbers h'.numbers) hbt List.drop_left hpos hcount hone
    obtain ⟨m', o', h''⟩ := h'.call st hcount hC hr hy hT
    rw [Loopback.step, he, ← hreturns]
    refine ⟨y, rfl, by rw [hy.outcome, hrep], ?_, by rw [hy.metadata]; exact hmd⟩
    intro i b hi
    have hits : i < ts.length := by rw [← hl]; exact (List.getElem?_eq_some_iff.1 hi).1
    have hits' : i < ts'.length := by rw [hC.length, hlen]; exact hits
    -- what the call returns goes on where all before it ended
    have hreturned : ∀ z : RxSession S' (List Link), z.returns = x.receiving.returns ++ [y] →
        z.returned i = (x.sent i).map t₀.format.arrives ++ y.samples i := fun z hz => by
      rw [RxSession.returned_concat hz, h.received_all hidle hits]
    have hp : RxSession.returned _ i <+: (x'.sent i).map t₀.format.arrives :=
      (h''.received (i := i) (by rwa [List.length_map])).2
    rw [hreturned _ (by rw [hreturns]), Loopback.sent_concat hsent, TxReturn.samples_of_ok hi, List.map_append,
      List.prefix_append_right_inj] at hp
    refine hp.eq_of_length ?_
    rw [hy.samples i _ (List.getElem?_eq_getElem hits'), List.length_map, List.length_map,
      hr.given _ (List.getElem_mem hits'), hrep, List.length_take, Nat.min_eq_left (hlong b (List.mem_of_getElem? hi))]
  · obtain ⟨err, hsends, -⟩ := h.send_misuse wait tx hb
    rw [hsent] at hsends
    simp at hsends

/-- A packet with a payload of `2 ^ 32` bytes arrives without its samples. -/
theorem Coupled.overlong (h : Coupled e t₀ rate [] 0 0 ts x) (hpos : 0 < t₀.packetSamples) {buffers : List (List S)}
    {count wait : Nat} {tx : TxMetadata} {p : Piece} (hcut : Piece.cut t₀.packetSamples tx.eov count = [p])
    (hbytes : count * t₀.format.sampleBytes = 2 ^ 32) (hl : buffers.length = ts.length)
    (hlong : ∀ b ∈ buffers, b.length = count)
    (hsent : (x.step e (.send buffers count wait tx)).sends = x.sends ++ [⟨.ok count, buffers⟩])
    (buffers' : List (List S')) (wait' : Nat) (onePacket : Bool) (asked : RxMetadata)
    (hl' : buffers'.length = ts.length) (hlong' : ∀ b ∈ buffers', count ≤ b.length) :
    ∃ y, ((x.step e (.send buffers count wait tx)).step e
        (.recv buffers' count wait' onePacket asked)).receiving.returns =
        x.receiving.returns ++ [y] ∧ y.outcome = .ok 0 := by
  have hcount : 0 < count := Nat.pos_of_ne_zero fun hz => by simp [hz] at hbytes
  obtain ⟨done, k, ls', hstep, hd, htiles, -, hall⟩ := h.exists_frames hpos wait tx hl fun b hb => (hlong b hb).ge
  rw [hstep] at hsent ⊢
  obtain rfl : count = k := by simpa using hsent.symm
  obtain rfl : done = [p] := (hall hcount rfl).trans hcut
  obtain ⟨hstart, -, -, hstop⟩ := htiles
  obtain rfl : p.stop = count := hstop
  -- the plan has one packet, whose header says that it is empty
  let out : Outline := ⟨{ t₀.packetOf tx p.stop 0 p with payloadLength := 0 }, 0⟩
  have hcarries : ∀ b ∈ buffers, Carries t₀.format [out] (t₀.framesOf tx p.stop b 0 [p]) := by
    intro b hb
    have hxs : (((b.drop p.start).take (p.stop - p.start)).map HostSample.toRaw).length * t₀.format.sampleBytes =
        2 ^ 32 := by
      simp [hstart, hlong b hb, hbytes]
    have hread := DataPacket.ofFrame?_bytes_overlong t₀.format (t₀.kind_packetOf tx p.stop 0 p) hxs
    simp only [Carries, Transmitter.framesOf, List.map_cons, List.map_nil, Transmitter.frameOf, hread]
    rfl
  have hin : ∀ t ∈ Track.postAll (fun b => t₀.framesOf tx p.stop b 0 [p]) ts buffers,
      InStep t₀.format [out] 0 0 t := by
    intro t ht
    obtain ⟨u, hu, b, hb, rfl⟩ := Track.mem_postAll ht
    exact (h.inStep u hu).post (hcarries b hb)
  obtain ⟨rep, ts', st, s', y, he, hC, hr, hy, -⟩ := hd.recv_allowed wait' onePacket asked
    (by rw [Track.length_postAll hl, hl']) hlong'
  have hI := lockstep_invariant t₀.format (List.IsChain.singleton out)
  have hformat := h.format
  obtain ⟨hne, m', o', hin'⟩ := hI.call (fun hz => by omega) (hformat ▸ hC) (fun _ _ => trivial)
    ⟨hd.nonempty, 0, 0, hin⟩
  rw [Loopback.step, he]
  refine ⟨y, rfl, ?_⟩
  -- nothing can be read of what was sent
  obtain ⟨t, ht⟩ := List.exists_mem_of_ne_nil _ hne
  obtain ⟨fs, hfs, -, hc⟩ := (hin' t ht).log
  obtain ⟨gs, hgs, hp⟩ := (hin' t ht).total_sent
  obtain rfl : fs = gs := Option.some.inj (hfs.symm.trans hgs)
  have hnone : (samplesOf (packetsIn t₀.format fs)).length = 0 := by
    rw [length_samplesOf, hc.outlines]
    rfl
  have hle := hp.length_le
  rw [Track.total, List.length_append, hr.given t ht, hnone] at hle
  rw [hy.outcome, show rep.count = 0 by omega]

end Received

/-! ## Whole sessions -/

/-- A transmitter and a receiver over links are an identity. Whatever the order of the
calls, the samples received on a channel are the begin of those reported as sent,
the same number on every channel, and no call reports a broken stream. After a
transmission into idle links, a call for its samples returns it whole, with the
flags, the time and the ends of vectors that the sender gave; if it is for one
packet only, the transmission must be one. -/
theorem loopback_identity (hx : Loopback.new e gs format txRate rxRate txSamples rxSamples = .ok x)
    (hfit : format.PayloadFits x.transmitter.packetSamples) (as : List (LoopbackAction S S'))
    (has : ∀ a ∈ as, a.Asks) :
    (∃ k, ∀ i < gs.length, ((x.run e as).receiving.returned i).length = k ∧
        (x.run e as).receiving.returned i <+: ((x.run e as).sent i).map format.arrives) ∧
      (∀ y ∈ (x.run e as).receiving.returns, ∀ n, y.outcome = .ok n → y.metadata.Clean) ∧
      ∀ count > 0, ∀ buffers wait tx, (x.run e as).Idle e →
        ((x.run e as).step e (.send buffers count wait tx)).sends = (x.run e as).sends ++ [⟨.ok count, buffers⟩] →
        ∀ buffers' wait' onePacket asked, buffers'.length = gs.length → (∀ b ∈ buffers', count ≤ b.length) →
          (onePacket = true → (Piece.cut x.transmitter.packetSamples tx.eov count).length = 1) →
          ∃ y, (((x.run e as).step e (.send buffers count wait tx)).step e
              (.recv buffers' count wait' onePacket asked)).receiving.returns = (x.run e as).receiving.returns ++ [y] ∧
            y.Mirrors format txRate rxRate count buffers tx asked := by
  obtain ⟨links, t, r, hlinks, ht, hr, hx'⟩ := Loopback.of_new hx
  obtain ⟨hpos, hformat, hrate, -, -⟩ := Transmitter.of_new ht
  obtain rfl : x.transmitter = t := by rw [hx']
  rw [← hformat] at hfit
  obtain ⟨plan, m, o, ts, hlen, h⟩ := (Coupled.start hx).run hpos hfit as has
  rw [List.length_replicate] at hlen
  refine ⟨⟨reached plan m o, fun i hi => ?_⟩, h.clean, ?_⟩
  · rw [← hformat]
    exact h.received (by omega)
  · intro count hcount buffers wait tx hidle hsent buffers' wait' onePacket asked hl hlong hone
    rw [← hformat, ← hrate]
    exact h.mirrored hidle hpos hfit hcount hsent buffers' wait' onePacket asked (by omega) hlong hone

end Identity

/-- A transmission of two packets comes back whole where the calls ask for more than one
packet. -/
theorem loopback_identity_two_packets : ∃ (x : Loopback (Iq Int16) (Iq Int16)) (y : RxReturn (Iq Int16)),
    Loopback.new .host [⟨24, 24, 4, 4⟩] .sc16 1 1 8 2 = .ok x ∧
      ((x.step .host (.send [[⟨1, 2⟩, ⟨3, 4⟩, ⟨5, 6⟩]] 3 0 { eov := [2] })).step .host
        (.recv [[⟨0, 0⟩, ⟨0, 0⟩, ⟨0, 0⟩]] 3 0 false {})).receiving.returns = [y] ∧
      y.Mirrors .sc16 1 1 3 [[(⟨1, 2⟩ : Iq Int16), ⟨3, 4⟩, ⟨5, 6⟩]] { eov := [2] } {} := by
  have hx : ∃ x : Loopback (Iq Int16) (Iq Int16), Loopback.new .host [⟨24, 24, 4, 4⟩] .sc16 1 1 8 2 = .ok x ∧
      x.transmitter.packetSamples = 2 ∧ x.Idle .host ∧ x.receiving.returns = [] ∧
      (x.step .host (.send [[⟨1, 2⟩, ⟨3, 4⟩, ⟨5, 6⟩]] 3 0 { eov := [2] })).sends =
        x.sends ++ [⟨.ok 3, [[⟨1, 2⟩, ⟨3, 4⟩, ⟨5, 6⟩]]⟩] :=
    ⟨_, rfl, rfl, ⟨by decide, by decide⟩, rfl, rfl⟩
  obtain ⟨x, hx, hmost, hidle, hreturns, hsent⟩ := hx
  obtain ⟨-, -, h⟩ := loopback_identity hx (by rw [hmost]; decide) [] (by simp)
  obtain ⟨y, hy, hm⟩ := h 3 (by decide) _ 0 { eov := [2] } hidle hsent [[⟨0, 0⟩, ⟨0, 0⟩, ⟨0, 0⟩]] 0 false {} rfl
    (by decide) nofun
  rw [Loopback.run, List.foldl_nil, hreturns] at hy
  exact ⟨x, y, hx, hy, hm⟩

/-- A call for one packet does not return a transmission of two. A transmission in a
packet with a payload of `2 ^ 32` bytes is lost. -/
theorem loopback_identity_limits :
    (∃ x : Loopback (Iq Int16) (Iq Int16), Loopback.new .host [⟨24, 24, 4, 4⟩] .sc16 1 1 8 2 = .ok x ∧ x.Idle .host ∧
      (x.step .host (.send [[⟨1, 2⟩, ⟨3, 4⟩, ⟨5, 6⟩]] 3 0 {})).sends = [⟨.ok 3, [[⟨1, 2⟩, ⟨3, 4⟩, ⟨5, 6⟩]]⟩] ∧
      ((x.step .host (.send [[⟨1, 2⟩, ⟨3, 4⟩, ⟨5, 6⟩]] 3 0 {})).step .host
        (.recv [[⟨0, 0⟩, ⟨0, 0⟩, ⟨0, 0⟩]] 3 0 true {})).receiving.returns.map (·.outcome) = [.ok 2]) ∧
    ∃ x : Loopback (Iq Int16) (Iq Int16), Loopback.new .host [⟨2 ^ 32 + 16, 24, 1, 1⟩] .sc16 1 1 (2 ^ 30) 1 = .ok x ∧
      x.Idle .host ∧
      (x.step .host (.send [List.replicate (2 ^ 30) ⟨1, 2⟩] (2 ^ 30) 0 {})).sends =
        [⟨.ok (2 ^ 30), [List.replicate (2 ^ 30) ⟨1, 2⟩]⟩] ∧
      ((x.step .host (.send [List.replicate (2 ^ 30) ⟨1, 2⟩] (2 ^ 30) 0 {})).step .host
        (.recv [List.replicate (2 ^ 30) ⟨0, 0⟩] (2 ^ 30) 0 false {})).receiving.returns.map (·.outcome) = [.ok 0] := by
  refine ⟨⟨_, rfl, ⟨by decide, by decide⟩, rfl, rfl⟩, ?_⟩
  have hx : ∃ x : Loopback (Iq Int16) (Iq Int16),
      Loopback.new .host [⟨2 ^ 32 + 16, 24, 1, 1⟩] .sc16 1 1 (2 ^ 30) 1 = .ok x ∧ x.Idle .host ∧
        x.transmitter.packetSamples = 2 ^ 30 ∧ x.transmitter.format = .sc16 ∧ x.transmitter.sequences = [0] ∧
        x.sends = [] ∧ x.receiving.returns = [] ∧
        (Transmitter.acquireAll (Terminal.atEnd .device) 0 0 1 x.receiving.surroundings).1.isSome :=
    ⟨_, rfl, ⟨by decide, by decide⟩, rfl, rfl, rfl, rfl, rfl, rfl⟩
  obtain ⟨x, hx, hidle, hmost, hformat, hseq, hsends, hreturns, hframes⟩ := hx
  -- the samples are kept out of the reach of evaluation
  generalize hb : List.replicate (2 ^ 30) (⟨1, 2⟩ : Iq Int16) = b
  generalize hb' : List.replicate (2 ^ 30) (⟨0, 0⟩ : Iq Int16) = b'
  have hlen : b.length = 2 ^ 30 := by rw [← hb, List.length_replicate]
  have hlen' : b'.length = 2 ^ 30 := by rw [← hb', List.length_replicate]
  have hcut : Piece.cut x.transmitter.packetSamples [] (2 ^ 30) = [⟨0, 2 ^ 30, false⟩] := by
    rw [hmost]
    decide
  have hsent : (x.step .host (.send [b] (2 ^ 30) 0 {})).sends = x.sends ++ [⟨.ok (2 ^ 30), [b]⟩] := by
    rw [Loopback.sends_step, Transmitter.send_single (by decide) (by rw [hseq]; rfl) (by simp [hlen]) hcut
      (by rw [hseq]; exact hframes)]
  obtain ⟨y, hy, hout⟩ := (Coupled.start hx).overlong (by rw [hmost]; decide) hcut (by rw [hformat]; decide) rfl
    (by simp [hlen]) hsent [b'] 0 false {} rfl (by simp [hlen'])
  refine ⟨x, hx, hidle, by rw [hsent, hsends]; rfl, ?_⟩
  rw [hy, hreturns, List.nil_append, List.map_singleton, hout]

end RadioStream
