import RadioStream.Proofs.Link
import RadioStream.Proofs.Stream
import RadioStream.Proofs.Transmitter.Outlets
/-!
# What a transmitter sends

A send call puts one packet for each piece on every channel, or stops before a
piece for which some channel has no frame. `send_spec` says so in terms of the books
of the links: the frames that a channel has sent are followed by those of the
pieces done, the same number on every channel.
-/

namespace RadioStream

/-! ## Lanes as channels -/

/-- A frame is one of those that are idle, and waits for the other end when it is given up. -/
def Lane.traffic : Traffic Lane where
  Asked l f l' := l.acquire = (f, l')
  Given l f l' := l' = l.submit f

/-- A terminal that fills the frames of a lane, whatever there is beside it. -/
structure Terminal.Through {β τ : Type} (t : Terminal τ) (beside : β → Lane → τ) : Prop where
  acquire : ∀ wait b l, t.acquire wait (beside b l) = (l.acquire.1, beside b l.acquire.2)
  submit : ∀ f b l, t.submit f (beside b l) = beside b (l.submit f)

/-- The lanes of several terminals, beside things that stay as they are. -/
def laneOutlets {β τ : Type} {t : Terminal τ} {beside : β → Lane → τ} (h : t.Through beside) (bs : List β) :
    Outlets (Terminal.within · t) Lane.traffic where
  Tells ls s := ls.length = bs.length ∧ s = List.zipWith beside bs ls
  acquire := by
    rintro before after l wait s s' f ⟨hl, rfl⟩ hacq
    obtain ⟨b, first, rest, hf, he⟩ := zipWith_middle beside hl
    rw [he, ← hf, Terminal.acquire_within, h.acquire] at hacq
    rcases ha : l.acquire with ⟨g, l'⟩
    rw [ha] at hacq
    cases hacq
    exact ⟨l', ha, by simpa using hl, (he l').symm⟩
  submit := by
    rintro before after l s f ⟨hl, rfl⟩
    obtain ⟨b, first, rest, hf, he⟩ := zipWith_middle beside hl
    refine ⟨l.submit f, rfl, by simpa using hl, ?_⟩
    rw [he, he, ← hf, Terminal.submit_within, h.submit]

theorem through_ofEnd (e : End) : (Terminal.ofEnd e).Through fun (l : Link) lane => l.withOutbound e lane where
  acquire _ l lane := by cases e <;> rfl
  submit f l lane := by cases e <;> rfl

/-- Links with the lanes that they have are the same links. -/
theorem zipWith_withOutbound_self (e : End) (ls : List Link) :
    List.zipWith (fun (l : Link) lane => l.withOutbound e.other lane) ls (ls.map (·.inbound e)) = ls := by
  rw [List.zipWith_map_right, List.zipWith_self]
  refine List.map_id'' (fun l => ?_) ls
  cases e <;> rfl

/-- Links with other lanes have these lanes. -/
theorem map_inbound_zipWith (e : End) {ls : List Link} {lanes : List Lane} (h : lanes.length = ls.length) :
    (List.zipWith (fun (l : Link) lane => l.withOutbound e.other lane) ls lanes).map (·.inbound e) = lanes := by
  simp only [List.map_zipWith, Link.inbound_withOutbound]
  rw [← List.map_uncurry_zip_eq_zipWith]
  exact List.map_snd_zip (Nat.le_of_eq h)

namespace Outlet

variable {S : Type} {room : Nat} {away : List Frame} {x y z : Outlet Lane S} {fs gs : List Bytes}

/-- Frames went out on a lane and wait behind those that waited before. -/
structure Posted (room : Nat) (away : List Frame) (fs : List Bytes) (x y : Outlet Lane S) : Prop where
  stocked : y.account.Stocked room 0 away
  pending : y.account.pending = x.account.pending ++ fs
  sequence : y.sequence = x.sequence + UInt16.ofNat fs.length

theorem Posted.trans (h : Posted room away fs x y) (h' : Posted room away gs y z) :
    Posted room away (fs ++ gs) x z where
  stocked := h'.stocked
  pending := by rw [h'.pending, h.pending, List.append_assoc]
  sequence := by rw [h'.sequence, h.sequence, List.length_append, UInt16.ofNat_add, UInt16.add_assoc]

theorem Posted.refl (h : x.account.Stocked room 0 away) : Posted room away [] x x where
  stocked := h
  pending := (List.append_nil _).symm
  sequence := (UInt16.add_zero _).symm

/-- Nothing goes out on the lanes when a piece finds no frame. -/
theorem Missed.posted {xs ys : List (Outlet Lane S)} (h : Missed Lane.traffic xs ys) :
    List.Forall₂ (fun x y => ∀ room away, Lane.Stocked room 0 away x.account → Posted room away [] x y) xs ys := by
  refine h.each.imp ?_
  rintro x y (⟨hr, hy⟩ | rfl | ⟨f, l, ht, hg, hy⟩) room away hst
  · have hl : y.account = x.account := (Lane.acquire_none hr).2
    rw [hl] at hy
    rw [hy]
    exact .refl hst
  · exact .refl hst
  · obtain ⟨hf, hst₁⟩ := hst.acquire ht
    have hg : y.account = l.submit (f.withUsed 0) := hg
    obtain ⟨hw, hst₂⟩ := hst₁.submit_empty (f := f.withUsed 0) hf (Nat.zero_min _)
    refine ⟨hg ▸ hst₂, ?_, ?_⟩
    · rw [hg, Lane.pending, hw, (Lane.acquire_some ht).2, List.append_nil, Lane.pending]
    · rw [hy]
      exact (UInt16.add_zero _).symm

section Lanes

variable [HostSample S] {t : Transmitter} {md : TxMetadata} {count : Nat} {p : Piece} {ps : List Piece}

/-- A packet for which every frame has room goes out in the first idle frame. -/
theorem Sends.posted (h : Sends Lane.traffic (t.writer md count) p x y) (hst : x.account.Stocked room 0 away)
    (hfit : Header.size + (p.stop - p.start) * t.format.sampleBytes ≤ room) :
    Posted room away [t.frameOf md count x.sequence p x.samples] x y ∧ y.samples = x.samples ∧
      ∃ f, x.account.home.idle.items = f :: y.account.home.idle.items := by
  rcases h with @⟨f, l, _, ht, rfl⟩
  obtain ⟨hf, hst₁⟩ := hst.acquire ht
  obtain ⟨hi, hw⟩ := Lane.acquire_some ht
  obtain ⟨hok, hpay, hused⟩ := t.writer_release md count x.sequence x.samples (hfit.trans hf)
  obtain ⟨hwait, hhome, hst₂⟩ := hst₁.submit (f := (t.writer md count x.sequence p x.samples f.window).release f)
    (by rw [Written.window_release, Transmitter.length_writer]; exact hf) hused
  refine ⟨⟨hst₂, ?_, ?_⟩, rfl, f, ?_⟩
  · dsimp only
    rw [Lane.pending, hwait, List.map_append, List.map_singleton, hpay, hw, Lane.pending]
  · dsimp only
    rw [if_pos hok]
    rfl
  · dsimp only
    rw [hhome, hi]

/-- So do the packets of several pieces, one after the other. -/
theorem SendsAll.posted (h : SendsAll Lane.traffic (t.writer md count) ps x y) (hst : x.account.Stocked room 0 away)
    (hfit : ∀ p ∈ ps, Header.size + (p.stop - p.start) * t.format.sampleBytes ≤ room) :
    Posted room away (t.framesOf md count x.samples x.sequence ps) x y ∧
      ∃ gone, x.account.home.idle.items = gone ++ y.account.home.idle.items ∧ gone.length = ps.length := by
  induction h with
  | nil => exact ⟨.refl hst, [], rfl, rfl⟩
  | @cons p ps x y z hs _ ih =>
    obtain ⟨hp, hps⟩ := List.forall_mem_cons.1 hfit
    obtain ⟨hxy, hsamples, f, hf⟩ := hs.posted hst hp
    obtain ⟨hyz, gone, hg, hl⟩ := ih hxy.stocked hps
    rw [hsamples, hxy.sequence] at hyz
    refine ⟨hxy.trans hyz, f :: gone, ?_, congrArg (· + 1) hl⟩
    rw [hf, hg, List.cons_append]

/-- What goes out on each lane in a call. -/
theorem Goes.posted {xs ys : List (Outlet Lane S)} {done : List Piece} {k : Nat}
    (h : Goes Lane.traffic (t.writer md count) count ps xs done k ys)
    (hfit : ∀ p ∈ ps, Header.size + (p.stop - p.start) * t.format.sampleBytes ≤ room) :
    List.Forall₂ (fun x y => ∀ away, Lane.Stocked room 0 away x.account →
      Posted room away (t.framesOf md count x.samples x.sequence done) x y) xs ys := by
  cases h with
  | whole hys => exact hys.imp fun x y hxy away hst => (hxy.posted hst hfit).1
  | short he hzs hm =>
    refine forall₂_comp hzs hm.posted ?_
    intro x z y hxz hzy away hst
    have hdone := (hxz.posted hst fun p hp => hfit p (he ▸ List.mem_append_left _ hp)).1
    simpa using hdone.trans (hzy room away hdone.stocked)

end Lanes

end Outlet

variable {S : Type}

namespace Transmitter

open Outlet

variable {e : End} {room : Nat}

/-! ## Calls -/

/-- Every frame has room for the packets of the transmitter, which has one channel for
each link and the same number for the next packet of each. -/
structure Fits (t : Transmitter) (room channels : Nat) (q : UInt16) : Prop where
  sequences : t.sequences = List.replicate channels q
  room : Header.size + t.packetSamples * t.format.sampleBytes ≤ room

/-- The books of links on whose lanes frames went out. -/
theorem ledgered_posted {as : List Account} {ls : List Link} {q : UInt16} {n : Nat}
    {f : UInt16 → List S → List Bytes}
    (hb : Ledgered e room 0 as ls) {buffers : List (List S)} (hl : buffers.length = as.length)
    {ys : List (Outlet Lane S)} (hn : ∀ b, (f q b).length = n)
    (h : List.Forall₂
      (fun x y => ∀ away, Lane.Stocked room 0 away x.account → Posted room away (f x.sequence x.samples) x y)
      (row (ls.map (·.inbound e)) (List.replicate ls.length q) buffers) ys) :
    Ledgered e room 0 (Account.postAll (f q) as buffers)
        (List.zipWith (fun l lane => l.withOutbound e.other lane) ls (ys.map (·.account))) ∧
      ys.map (·.sequence) = List.replicate as.length (q + UInt16.ofNat n) := by
  induction hb generalizing buffers ys with
  | nil =>
    cases h
    exact ⟨.nil, rfl⟩
  | @cons a l as ls ha _ ih =>
    obtain ⟨b, buffers, rfl⟩ := List.exists_cons_of_length_eq_add_one hl
    cases h with
    | @cons _ y _ ys hy hys =>
      obtain ⟨hbooks, hseq⟩ := ih (Nat.succ.inj hl) hys
      have hp := hy _ ha.stocked
      refine ⟨.cons ?_ hbooks, ?_⟩
      · rw [Link.inbound_withOutbound]
        refine .of_stocked ?_ hp.stocked
        show a.sent.map (· ++ f q b) = some (a.taken ++ y.account.pending)
        rw [ha.sent, hp.pending, Option.map_some, List.append_assoc]
        rfl
      · rw [List.map_cons, hseq, hp.sequence, hn]
        rfl

variable [HostSample S]

/-- A call that the arguments allow sends the first of its pieces on every channel,
and reports the samples in them. -/
theorem send_spec (wait : Nat) (md : TxMetadata) {count : Nat} {t : Transmitter} {q : UInt16} {as : List Account}
    {ls : List Link} {buffers : List (List S)} (ht : t.Fits room as.length q) (hpos : 0 < t.packetSamples)
    (hb : Ledgered e room 0 as ls) (hl : buffers.length = as.length) (hlong : ∀ b ∈ buffers, count ≤ b.length) :
    ∃ done k ls', t.send (Terminal.atEnd e.other) buffers count wait md ls =
        (.ok k, { t with sequences := List.replicate as.length (q + UInt16.ofNat done.length) }, ls') ∧
      Ledgered e room 0 (Account.postAll (fun b => t.framesOf md count b q done) as buffers) ls' ∧
      Piece.Tiles t.packetSamples 0 done k ∧ k ≤ count ∧
      (0 < count → k = count → done = Piece.cut t.packetSamples md.eov count) := by
  have hlen : as.length = ls.length := hb.length_eq
  obtain ⟨done, k, ys, ls', he, ⟨-, hls⟩, hgo⟩ := send_goes (t := t) (laneOutlets (through_ofEnd e.other) ls) wait md
    count (ls.map (·.inbound e)) buffers (by rw [ht.sequences, List.length_replicate, List.length_map, hlen])
    (by rw [List.length_map, hl, hlen]) hlong ⟨List.length_map _, (zipWith_withOutbound_self e ls).symm⟩
  rw [ht.sequences, hlen] at hgo
  obtain ⟨htiles, hk, hpre⟩ := hgo.tiles (t.tiles_pieces md count hpos)
  obtain ⟨hbooks, hseq⟩ := ledgered_posted (f := fun q b => t.framesOf md count b q done) hb hl
    (fun b => t.length_framesOf md count b q done) (hgo.posted fun p hp => (room_of_mem_pieces hpos hp).trans ht.room)
  rw [hseq] at he
  refine ⟨done, k, ls', he, hls ▸ hbooks, htiles, hk, fun hc hkc => ?_⟩
  cases hgo with
  | whole _ => rw [pieces, if_neg (Nat.ne_of_gt hc)]
  | @short _ rest p _ _ hps _ _ =>
    have hmem : p ∈ Piece.cut t.packetSamples md.eov count := by
      rw [pieces, if_neg (Nat.ne_of_gt hc)] at hps
      simp [hps]
    have hlt := Piece.nonempty_of_mem_cutFrom hpos md.eov count hmem
    have hle := (hps ▸ t.tiles_pieces md count hpos).before
    omega

/-! ## What the frames hold -/

section Contents

variable {t : Transmitter} {md : TxMetadata} {count : Nat} {b : List S}

/-- What the packet of a piece says of itself, the same on every channel. -/
def outlineOf (t : Transmitter) (md : TxMetadata) (count : Nat) (q : UInt16) (p : Piece) : Outline where
  header := { t.packetOf md count q p with payloadLength := UInt32.ofNat ((p.stop - p.start) * t.format.sampleBytes) }
  count := p.stop - p.start

def outlinesOf (t : Transmitter) (md : TxMetadata) (count : Nat) : UInt16 → List Piece → List Outline
  | _, [] => []
  | q, p :: ps => t.outlineOf md count q p :: outlinesOf t md count (q + 1) ps

theorem ofFrame?_frameOf {q : UInt16} {p : Piece} (hp : p.stop ≤ b.length)
    (hfit : t.format.PayloadFits (p.stop - p.start)) :
    DataPacket.ofFrame? t.format (t.frameOf md count q p b) = some ⟨(t.outlineOf md count q p).header,
      ((b.drop p.start).take (p.stop - p.start)).map fun v => t.format.carried (HostSample.toRaw v)⟩ := by
  have hl : (((b.drop p.start).take (p.stop - p.start)).map (HostSample.toRaw (σ := S))).length = p.stop - p.start := by
    rw [List.length_map, List.length_take, List.length_drop]
    omega
  rw [frameOf, DataPacket.ofFrame?_bytes t.format (t.kind_packetOf md count q p) (by rw [hl]; exact hfit), hl,
    List.map_map]
  rfl

/-- The frames on all channels have the same outlines. -/
theorem outlines_framesOf {q : UInt16} {ps : List Piece} {start stop : Nat}
    (hps : Piece.Tiles t.packetSamples start ps stop) (hb : stop ≤ b.length)
    (hfit : t.format.PayloadFits t.packetSamples) :
    (t.framesOf md count b q ps).map (fun f => (DataPacket.ofFrame? t.format f).map DataPacket.outline) =
      (t.outlinesOf md count q ps).map some := by
  induction ps generalizing start q with
  | nil => rfl
  | cons p ps ih =>
    obtain ⟨rfl, hle, hmost, hr⟩ := hps
    have hstop := hr.le
    have hp : t.format.PayloadFits (p.stop - p.start) := hfit.mono (by omega)
    rw [framesOf, outlinesOf, List.map_cons, List.map_cons, ih hr, ofFrame?_frameOf (by omega) hp, Option.map_some,
      DataPacket.outline, List.length_map, List.length_take, List.length_drop,
      Nat.min_eq_left (by omega : p.stop - p.start ≤ b.length - p.start)]
    rfl

/-- The samples in the frames of pieces are those that the pieces cover, as they are
carried. -/
theorem samplesOf_framesOf {q : UInt16} {ps : List Piece} {start stop : Nat}
    (hps : Piece.Tiles t.packetSamples start ps stop) (hb : stop ≤ b.length)
    (hfit : t.format.PayloadFits t.packetSamples) :
    samplesOf (packetsIn t.format (t.framesOf md count b q ps)) =
      ((b.drop start).take (stop - start)).map fun v => t.format.carried (HostSample.toRaw v) := by
  induction ps generalizing start q with
  | nil =>
    obtain rfl : start = stop := hps
    simp [framesOf, packetsIn, samplesOf]
  | cons p ps ih =>
    obtain ⟨rfl, hle, hmost, hr⟩ := hps
    have hstop := hr.le
    have hp : t.format.PayloadFits (p.stop - p.start) := hfit.mono (by omega)
    rw [framesOf, packetsIn, List.filterMap_cons_some (ofFrame?_frameOf (by omega) hp), ← packetsIn, samplesOf_cons,
      ih hr, ← List.map_append]
    congr 1
    rw [show stop - p.start = (p.stop - p.start) + (stop - p.stop) by omega, List.take_add, List.drop_drop]
    congr 3
    omega

theorem length_outlinesOf (t : Transmitter) (md : TxMetadata) (count : Nat) (q : UInt16) (ps : List Piece) :
    (t.outlinesOf md count q ps).length = ps.length := by
  induction ps generalizing q with
  | nil => rfl
  | cons p ps ih => rw [outlinesOf, List.length_cons, ih, List.length_cons]

/-- The packets are numbered one after the other. -/
theorem outlinesOf_get {q : UInt16} {ps : List Piece} {j : Nat} {o : Outline}
    (h : (t.outlinesOf md count q ps)[j]? = some o) :
    ∃ p, ps[j]? = some p ∧ o = t.outlineOf md count (q + UInt16.ofNat j) p := by
  induction ps generalizing q j with
  | nil => cases h
  | cons p ps ih =>
    cases j with
    | zero =>
      cases h
      exact ⟨p, rfl, by rw [show q + UInt16.ofNat 0 = q from UInt16.add_zero q]⟩
    | succ j =>
      obtain ⟨p', hp, rfl⟩ := ih h
      refine ⟨p', hp, ?_⟩
      rw [UInt16.ofNat_add, UInt16.add_comm (UInt16.ofNat j), ← UInt16.add_assoc]
      rfl

end Contents

end Transmitter

end RadioStream
