import RadioStream.Proofs.Capacity
import RadioStream.Proofs.Loopback.Identity
import RadioStream.Proofs.Sim.Refusal
/-!
# Room for the packets of a stream

A stream is opened only if its frames have room for its samples: those of a receive
stream on their way to the host, those of a transmit stream on their way to the device.
Nobody looks at the other direction, nor at the statuses that share the frames of received
samples. `stream_room` says what fits: samples always do, a status, a command and an
event exactly if the frames of their direction are as large as they are.
-/

namespace RadioStream.Sim

/-- What the two ends of a receive link put into its buffers. -/
structure ReceiveRoom (g : Geometry) (format : WireFormat) (rate : Float) (most : Nat) (l : Link) : Prop where
  data : ∀ (h : Header) (xs : List (Iq Int16)), xs.length ≤ most →
    l.Takes .device (h.encodeSamples format xs) (Header.size + xs.length * format.sampleBytes) True
  /-- The empty packet that ends a burst. -/
  closing : ∀ h : Header, l.Takes .device (h.encodePacket []) Header.size True
  status : ∀ (code : RxCode) (time : Option UInt64), l.Takes .device (code.encode time) 20 (20 ≤ g.recvFrameSize)
  command : ∀ c : StreamCommand, l.Takes .host (c.encode rate) 28 (28 ≤ g.sendFrameSize)

/-- What the two ends of a transmit link put into its buffers. -/
structure TransmitRoom (g : Geometry) (format : WireFormat) (most : Nat) (l : Link) : Prop where
  data : ∀ {S : Type} [HostSample S] (h : Header) (xs : List S), xs.length ≤ most →
    l.Takes .host (h.encodeSamples format xs) (Header.size + xs.length * format.sampleBytes) True
  event : ∀ (r : EventReport) (time : Option UInt64), l.Takes .device (r.encode time) 40 (40 ≤ g.recvFrameSize)

section Room

variable {g : Geometry} {l : Link} {format : WireFormat} {rate : Float} {most : Nat}

theorem fits_of_le {n m : Nat} (hn : n ≤ m) {size : Nat} (h : Header.size + m * format.sampleBytes ≤ size) :
    Header.size + n * format.sampleBytes ≤ size :=
  (Nat.add_le_add_left (Nat.mul_le_mul_right _ hn) _).trans h

theorem ReceiveRoom.of_new (hl : Link.new g = .ok l)
    (hroom : Header.size + most * format.sampleBytes ≤ g.recvFrameSize) : ReceiveRoom g format rate most l where
  data h xs hxs := takes_samples hl .device h format (fits_of_le hxs hroom)
  closing h as name b hb := by
    have ht := takes_packet hl .device h [] as name b hb
    exact ht.trans (iff_true_intro (Nat.le_of_add_right_le hroom))
  status code time := by
    have ht := takes_packet hl .device (Header.stamped { kind := .status } time) (bigEndian 4 code.wire.toNat)
    rw [length_bigEndian] at ht
    exact ht
  command c := by
    have ht := takes_packet hl .host (c.header rate) c.payload
    rw [c.length_payload] at ht
    exact ht

theorem TransmitRoom.of_new (hl : Link.new g = .ok l)
    (hroom : Header.size + most * format.sampleBytes ≤ g.sendFrameSize) : TransmitRoom g format most l where
  data h xs hxs := takes_samples hl .host h format (fits_of_le hxs hroom)
  event r time := by
    have ht := takes_packet hl .device (Header.stamped { kind := .event } time) r.payload
    rw [r.length_payload] at ht
    exact ht

end Room

namespace Device

/-! ## Opening a stream -/

theorem foldl_addCircuit (chain : Chain) (ls : List Link) (is : List Nat) (m : Machine) :
    ls.foldl (fun (circuits, machine) link =>
        let (i, machine) := machine.addCircuit link chain
        (circuits ++ [i], machine)) (is, m) =
      (is ++ List.range' m.circuits.length ls.length,
        { m with circuits := m.circuits ++ ls.map fun l => ⟨l, chain, m.now⟩ }) := by
  induction ls generalizing is m with
  | nil => simp
  | cons l ls ih =>
    rw [List.foldl_cons, ih]
    simp [Machine.addCircuit, List.range'_succ]

/-- The links of a stream are new. -/
theorem new_of_mem_links {s : Setup} {links : List Link} (h : Setup.links s = .ok links) :
    ∀ l ∈ links, Link.new s.geometry = .ok l := by
  have hf := forall₂_of_mapM h
  generalize s.channels = channels at hf
  clear h
  induction hf with
  | nil => simp
  | cons hl _ ih =>
    rw [List.forall_mem_cons]
    exact ⟨hl, ih⟩

/-- What was added at the end of the circuits. -/
theorem exists_added {circuits : List Circuit} {α : Type} {xs : List α} (f : α → Circuit) {i : Nat}
    (hi : i ∈ List.range' circuits.length xs.length) : ∃ x ∈ xs, (circuits ++ xs.map f)[i]? = some (f x) := by
  obtain ⟨j, hj, rfl⟩ := List.mem_range'.1 hi
  refine ⟨xs[j], List.getElem_mem hj, ?_⟩
  rw [Nat.one_mul, List.getElem?_append_right (Nat.le_add_right _ _), Nat.add_sub_cancel_left, List.getElem?_map,
    List.getElem?_eq_getElem hj, Option.map_some]

theorem openReceive_room {d d' : Device} {a : StreamArgs} {s : ReceiveStream} (h : d.openReceive a = .ok (s, d')) :
    ∃ t, d.setup a = .ok t ∧ s.circuits.length = a.selected.length ∧ ∀ i ∈ s.circuits, ∃ c r,
      d'.machine.circuits[i]? = some c ∧ c.chain = .receive r ∧ r.format = a.format ∧
      r.packetSamples = s.receiver.packetSamples ∧
      ReceiveRoom t.geometry a.format d.config.tickRate s.receiver.packetSamples c.link := by
  unfold openReceive at h
  obtain ⟨t, ht, h⟩ := bind_eq_ok h
  obtain ⟨links, hlinks, h⟩ := bind_eq_ok h
  obtain ⟨r, hr, h⟩ := bind_eq_ok h
  dsimp only at h
  rw [foldl_addCircuit] at h
  cases h
  obtain ⟨-, hfit⟩ := Receiver.fits_of_new hr
  obtain ⟨-, rfl⟩ := Receiver.eq_of_new hr
  refine ⟨t, ht, by simp [length_links hlinks, channels_of_setup ht], fun i hi => ?_⟩
  obtain ⟨l, hl, hc⟩ := exists_added (fun l => ⟨l, .receive
    { format := a.format, rate := d.config.tickRate, packetSamples := t.packetSamples }, d.machine.now⟩) hi
  exact ⟨_, _, hc, rfl, rfl, rfl, .of_new (new_of_mem_links hlinks l hl) (hfit _ (List.mem_map_of_mem hl))⟩

theorem openTransmit_room {d d' : Device} {a : StreamArgs} {s : TransmitStream} (h : d.openTransmit a = (.ok s, d')) :
    ∃ t, d.setup a = .ok t ∧ s.circuits.length = a.selected.length ∧ ∀ i ∈ s.circuits, ∃ c r,
      d'.machine.circuits[i]? = some c ∧ c.chain = .transmit r ∧ r.format = a.format ∧
      TransmitRoom t.geometry a.format s.transmitter.packetSamples c.link := by
  rw [openTransmit_eq] at h
  cases ht : d.setup a with
  | error e => simp [ht] at h
  | ok t =>
    rw [ht] at h
    dsimp only at h
    cases hlinks : Setup.links t with
    | error e => simp [hlinks] at h
    | ok links =>
      rw [hlinks] at h
      dsimp only at h
      split at h
      next tx hnew =>
        cases h
        obtain ⟨-, hformat, -, -, hroom⟩ := Transmitter.of_new hnew
        have hlen := length_links hlinks
        refine ⟨t, rfl, by simp [hlen, channels_of_setup ht], fun i hi => ?_⟩
        obtain ⟨⟨channel, l⟩, hp, hc⟩ :=
          exists_added (fun p : Nat × Link => ⟨p.2, .transmit (d.transmitChain a.format p.1), d.machine.now⟩) hi
        have hl : l ∈ links := (List.of_mem_zip hp).2
        have hfit := hroom _ (List.mem_map_of_mem hl)
        rw [Transmitter.room, hformat] at hfit
        exact ⟨_, _, hc, rfl, rfl, .of_new (new_of_mem_links hlinks l hl) hfit⟩
      next => cases h

/-- Whatever the device and the arguments: on the links of a stream that was opened samples
always fit, and no packet that ends a burst is too large. A status or a command on a
receive stream and an event on a transmit stream fit exactly if the frames of their
direction are as large as they are. As in `Receiver.new`, the length of a packet is a
number without end, which has sixty-four bits for fewer than `2 ^ 61` samples. -/
theorem stream_room (d : Device) (a : StreamArgs) :
    (∀ s d', d.openReceive a = .ok (s, d') → ∃ t, d.setup a = .ok t ∧ s.circuits.length = a.selected.length ∧
      ∀ i ∈ s.circuits, ∃ c r, d'.machine.circuits[i]? = some c ∧ c.chain = .receive r ∧ r.format = a.format ∧
        r.packetSamples = s.receiver.packetSamples ∧
        ReceiveRoom t.geometry a.format d.config.tickRate s.receiver.packetSamples c.link) ∧
    (∀ s d', d.openTransmit a = (.ok s, d') → ∃ t, d.setup a = .ok t ∧ s.circuits.length = a.selected.length ∧
      ∀ i ∈ s.circuits, ∃ c r, d'.machine.circuits[i]? = some c ∧ c.chain = .transmit r ∧ r.format = a.format ∧
        TransmitRoom t.geometry a.format s.transmitter.packetSamples c.link) :=
  ⟨fun _ _ => openReceive_room, fun _ _ => openTransmit_room⟩

/-- A device with packets of one sample and one frame of a given size in each direction. -/
def narrow (recv send : Nat) : Device where
  address := .empty
  config := { geometry := ⟨recv, send, 1, 1⟩, packetSamples := 1 }
  machine := .new 1e6 0

/-- Frames of eighteen bytes take a sample of two bytes but no status, those of sixteen
bytes no command, and a stream is opened all the same. So is a transmit stream whose
frames take no event. -/
theorem stream_room_short :
    let a : StreamArgs := { format := .sc8 }
    (∃ s d', (narrow 18 16).openReceive a = .ok (s, d') ∧ ∃ i ∈ s.circuits, ∃ c, d'.machine.circuits[i]? = some c ∧
      c.link.Takes .device (RxCode.encode .overflow none) 20 False ∧
      ∀ command : StreamCommand, c.link.Takes .host (command.encode 1e6) 28 False) ∧
    (∃ s d', (narrow 16 18).openTransmit a = (.ok s, d') ∧ ∃ i ∈ s.circuits, ∃ c, d'.machine.circuits[i]? = some c ∧
      ∀ r : EventReport, c.link.Takes .device (r.encode none) 40 False) := by
  have hd : ∃ s d', (narrow 18 16).openReceive { format := .sc8 } = .ok (s, d') ∧ s.circuits = [0] :=
    ⟨_, _, by rfl, rfl⟩
  have hd₂ : ∃ s d', (narrow 16 18).openTransmit { format := .sc8 } = (.ok s, d') ∧ s.circuits = [0] :=
    ⟨⟨⟨[0], .sc8, 1e6, 1⟩, [0], 0⟩, _, Prod.ext (by rfl) rfl, rfl⟩
  intro a
  obtain ⟨s, d', ho, hs⟩ := hd
  obtain ⟨s₂, d₂', ho₂, hs₂⟩ := hd₂
  obtain ⟨t, ht, -, hroom⟩ := (stream_room (narrow 18 16) a).1 s d' ho
  obtain ⟨t₂, ht₂, -, hroom₂⟩ := (stream_room (narrow 16 18) a).2 s₂ d₂' ho₂
  cases (show (narrow 18 16).setup a = .ok ⟨[0], ⟨18, 16, 1, 1⟩, 1⟩ by rfl).symm.trans ht
  cases (show (narrow 16 18).setup a = .ok ⟨[0], ⟨16, 18, 1, 1⟩, 1⟩ by rfl).symm.trans ht₂
  obtain ⟨c, -, hc, -, -, -, hr⟩ := hroom 0 (by simp [hs])
  obtain ⟨c₂, -, hc₂, -, -, hr₂⟩ := hroom₂ 0 (by simp [hs₂])
  have short : ∀ {l : Link} {e : End} {write : Bytes → Written} {n : Nat} {fits : Prop},
      l.Takes e write n fits → ¬fits → l.Takes e write n False :=
    fun ht hf as name b hb => (ht as name b hb).trans (iff_of_false hf id)
  exact ⟨⟨s, d', ho, 0, by simp [hs], c, hc, short (hr.status _ _) (by decide),
      fun command => short (hr.command command) (by decide)⟩,
    s₂, d₂', ho₂, 0, by simp [hs₂], c₂, hc₂, fun r => short (hr₂.event r _) (by decide)⟩

end Device

end RadioStream.Sim
