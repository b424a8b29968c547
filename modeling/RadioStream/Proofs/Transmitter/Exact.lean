import RadioStream.Proofs.Receiver.Recording
import RadioStream.Proofs.Transmitter.Outlets
/-!
# A transmission in packets

If every frame that a call asks for is there, the call sends all samples, and what goes out
is settled by its arguments: `send_exact` says where the samples are cut, what each packet
says and holds, and how it is numbered, for a transmitter on any links.

The frames are those of the call in surroundings that keep a record of them
(`Transmitter.dealsOf`), in which a transmitter does what it does without the record.
-/

namespace RadioStream

variable {σ τ S : Type}

/-! ## Surroundings that keep a record -/

/-- The frames that a channel was asked for, and those that were given up on it. -/
structure Deal where
  given : List (Option Frame) := []
  sent : List Frame := []

/-- Surroundings that keep a record of the frames of each channel. -/
structure Dealt (σ : Type) where
  inner : σ
  deals : List Deal

/-- Terminals that record the frames asked for and those given up. -/
def dealing (terminals : Nat → Terminal σ) (i : Nat) : Terminal (Dealt σ) where
  receive wait s := match (terminals i).receive wait s.inner with
    | (f, x) => (f, { s with inner := x })
  recycle f s := { s with inner := (terminals i).recycle f s.inner }
  acquire wait s := match (terminals i).acquire wait s.inner with
    | (f, x) => (f, ⟨x, s.deals.modify i fun d => { d with given := d.given ++ [f] }⟩)
  submit f s := ⟨(terminals i).submit f s.inner, s.deals.modify i fun d => { d with sent := d.sent ++ [f] }⟩
  backlog s := (terminals i).backlog s.inner

theorem dealing_shows (terminals : Nat → Terminal σ) (i : Nat) :
    (dealing terminals i).Shows Dealt.inner (terminals i) where
  receive _ _ := rfl
  recycle _ _ := rfl
  acquire _ _ := rfl
  submit _ _ := rfl
  backlog _ := rfl

/-- What is recorded of a channel. -/
def Deal.traffic : Traffic Deal where
  Asked d f d' := d' = { d with given := d.given ++ [f] }
  Given d f d' := d' = { d with sent := d.sent ++ [f] }

/-- The record tells how each channel stands. -/
def dealOutlets (terminals : Nat → Terminal σ) : Outlets (dealing terminals) Deal.traffic where
  Tells ds s := s.deals = ds
  acquire := by
    intro before after d wait s s' f hs hacq
    obtain ⟨rfl, rfl⟩ := Prod.mk.inj hacq
    refine ⟨_, rfl, ?_⟩
    dsimp only
    rw [hs, modify_before]
  submit := by
    intro before after d s f hs
    exact ⟨_, rfl, by simp only [dealing]; rw [hs, modify_before]⟩

section Shown

variable {view : τ → σ} {terminals' : Nat → Terminal τ} {terminals : Nat → Terminal σ}
  (h : ∀ i, (terminals' i).Shows view (terminals i))

include h

namespace Transmitter

theorem acquireAll_shown (wait i n : Nat) (s : τ) :
    acquireAll terminals wait i n (view s) = Prod.map id view (acquireAll terminals' wait i n s) := by
  induction n generalizing i s with
  | zero => rfl
  | succ n ih =>
    unfold acquireAll
    rw [(h i).acquire]
    rcases (terminals' i).acquire wait s with ⟨_ | f, s₁⟩
    · rfl
    · dsimp only [Prod.map, id]
      rw [ih]
      rcases acquireAll terminals' wait (i + 1) n s₁ with ⟨_ | fs, s₂⟩
      · dsimp only [Prod.map, id]
        rw [(h i).submit]
      · rfl

variable [HostSample S]

theorem sendAll_shown (format : WireFormat) (hd : Header) (i : Nat) (qs : List UInt16) (bs : List (List S))
    (fs : List Frame) (s : τ) :
    sendAll terminals format hd i qs bs fs (view s) = Prod.map id view (sendAll terminals' format hd i qs bs fs s) := by
  induction qs generalizing i bs fs s with
  | nil => rfl
  | cons q qs ih =>
    rcases bs with _ | ⟨b, bs⟩
    · rfl
    · rcases fs with _ | ⟨f, fs⟩
      · rfl
      · unfold sendAll
        simp only [Terminal.sendIn_eq, (h i).submit, ih]
        rfl

theorem sendPiece_shown (wait : Nat) (t : Transmitter) (buffers : List (List S)) (hd : Header) (p : Piece) (s : τ) :
    t.sendPiece terminals wait buffers hd p (view s) =
      Prod.map id (Prod.map id view) (t.sendPiece terminals' wait buffers hd p s) := by
  unfold sendPiece
  rw [acquireAll_shown h]
  rcases acquireAll terminals' wait 0 t.sequences.length s with ⟨_ | fs, s₁⟩
  · rfl
  · dsimp only [Prod.map, id]
    rw [sendAll_shown h]
    rfl

theorem sendPieces_shown (wait count : Nat) (md : TxMetadata) (buffers : List (List S)) (ps : List Piece)
    (t : Transmitter) (s : τ) :
    sendPieces terminals wait count md buffers ps t (view s) =
      Prod.map id (Prod.map id view) (sendPieces terminals' wait count md buffers ps t s) := by
  induction ps generalizing t s with
  | nil => rfl
  | cons p ps ih =>
    unfold sendPieces
    dsimp only
    rw [sendPiece_shown h]
    rcases t.sendPiece terminals' wait buffers (t.header md (p.start == 0) (p.stop == count) p.endsVector) p s with
      ⟨_ | _, t₁, s₁⟩
    · rfl
    · exact ih t₁ s₁

/-- A transmitter does not notice what its surroundings hold besides. -/
theorem send_shown (t : Transmitter) (buffers : List (List S)) (count wait : Nat) (md : TxMetadata) (s : τ) :
    t.send terminals buffers count wait md (view s) =
      Prod.map id (Prod.map id view) (t.send terminals' buffers count wait md s) := by
  unfold send
  split
  · rfl
  · split
    · rfl
    · simp only [sendPiece_shown h, sendPieces_shown h]
      split
      · split <;> rfl
      · rfl

end Transmitter

end Shown

/-- What is recorded of each channel in a call. -/
def Transmitter.dealsOf [HostSample S] (t : Transmitter) (terminals : Nat → Terminal σ) (buffers : List (List S))
    (count wait : Nat) (md : TxMetadata) (s : σ) : List Deal :=
  (t.send (dealing terminals) buffers count wait md ⟨s, List.replicate t.sequences.length {}⟩).2.2.deals

/-- Every frame that was asked for was there, with a window of some size at least. -/
def Deal.Free (size : Nat) (d : Deal) : Prop := ∀ g ∈ d.given, ∃ f ∈ g, size ≤ f.window.length

instance (size : Nat) (d : Deal) : Decidable (d.Free size) :=
  inferInstanceAs (Decidable (∀ g ∈ d.given, ∃ f ∈ g, size ≤ f.window.length))

theorem Deal.Free.mono {m n : Nat} {d : Deal} (h : d.Free n) (hle : m ≤ n) : d.Free m := by
  intro g hg
  obtain ⟨f, hf, hn⟩ := h g hg
  exact ⟨f, hf, hle.trans hn⟩

/-! ## What goes out -/

namespace Outlet

variable [HostSample S] {t : Transmitter} {md : TxMetadata} {count room : Nat} {p : Piece} {ps : List Piece}
  {x y : Outlet Deal S}

/-- What was recorded of a channel stays on the record. -/
theorem SendsAll.given_prefix (h : SendsAll Deal.traffic (t.writer md count) ps x y) :
    x.account.given <+: y.account.given := by
  refine h.keeps (P := fun d => x.account.given <+: d.given) (t.length_writer md count) ?_ (List.prefix_refl _)
  rintro d f _ g _ hp rfl - - rfl
  exact hp.trans (List.prefix_append _ _)

theorem Sends.dealt (h : Sends Deal.traffic (t.writer md count) p x y) (hfree : y.account.Free room)
    (hfit : Header.size + (p.stop - p.start) * t.format.sampleBytes ≤ room) :
    y.account.sent.map Frame.payload = x.account.sent.map Frame.payload ++ [t.frameOf md count x.sequence p x.samples] ∧
      y.sequence = x.sequence + 1 ∧ y.samples = x.samples := by
  rcases h with @⟨f, _, _, rfl, rfl⟩
  obtain ⟨g, hg, hroom⟩ := hfree (some f) (by simp)
  cases hg
  obtain ⟨hok, hpay, -⟩ := t.writer_release md count x.sequence x.samples (hfit.trans hroom)
  refine ⟨?_, if_pos hok, rfl⟩
  rw [List.map_append, List.map_singleton, hpay]

/-- The frames given up on a channel are those of the pieces. -/
theorem SendsAll.dealt (h : SendsAll Deal.traffic (t.writer md count) ps x y) (hfree : y.account.Free room)
    (hfit : ∀ p ∈ ps, Header.size + (p.stop - p.start) * t.format.sampleBytes ≤ room) :
    y.account.sent.map Frame.payload =
        x.account.sent.map Frame.payload ++ t.framesOf md count x.samples x.sequence ps ∧
      y.sequence = x.sequence + UInt16.ofNat ps.length := by
  induction h with
  | nil => exact ⟨(List.append_nil _).symm, (UInt16.add_zero _).symm⟩
  | @cons p ps x y z hs hr ih =>
    obtain ⟨hp, hps⟩ := List.forall_mem_cons.1 hfit
    obtain ⟨hsent, hq, hsamples⟩ := hs.dealt (fun g hg => hfree g (hr.given_prefix.subset hg)) hp
    obtain ⟨hsent', hq'⟩ := ih hfree hps
    rw [hq, hsamples] at hsent'
    refine ⟨?_, ?_⟩
    · rw [hsent', hsent, Transmitter.framesOf, List.append_assoc, List.singleton_append]
    · rw [hq', hq, List.length_cons, UInt16.ofNat_add, UInt16.add_comm (UInt16.ofNat ps.length), ← UInt16.add_assoc]
      rfl

/-- Where every frame was there, all pieces go out on every channel. -/
theorem Goes.dealt {xs ys : List (Outlet Deal S)} {done : List Piece} {k : Nat}
    (h : Goes Deal.traffic (t.writer md count) count ps xs done k ys) (hfree : ∀ y ∈ ys, y.account.Free room)
    (hfit : ∀ p ∈ ps, Header.size + (p.stop - p.start) * t.format.sampleBytes ≤ room) :
    k = count ∧ List.Forall₂ (fun x y => y.account.sent.map Frame.payload =
        x.account.sent.map Frame.payload ++ t.framesOf md count x.samples x.sequence ps ∧
      y.sequence = x.sequence + UInt16.ofNat ps.length) xs ys := by
  cases h with
  | whole hys => exact ⟨rfl, forall₂_imp_mem hys fun x _ y hy hxy => hxy.dealt (hfree y hy) hfit⟩
  | short _ _ hm =>
    -- a frame that was refused is on the record
    obtain ⟨x, -, y, hy, hr⟩ := hm.exists_refused
    have hr : y.account = { x.account with given := x.account.given ++ [none] } := hr
    obtain ⟨f, hf, -⟩ := hfree y hy none (by rw [hr]; simp)
    cases hf

end Outlet

/-! ## The packets of a call -/

/-- A buffer of the right size is filled by what is packed into it. -/
theorem WireFormat.pack_whole [HostSample S] (format : WireFormat) {xs : List S} {out : Bytes}
    (hl : out.length = xs.length * format.sampleBytes) :
    (format.pack xs out).2 = (xs.map HostSample.toRaw).flatMap format.encode := by
  have hcount : min xs.length (out.length / format.sampleBytes) = xs.length := by
    rw [hl, Nat.mul_div_cancel _ format.sampleBytes_pos, Nat.min_self]
  have hlen := format.length_flatMap_encode (xs.map (HostSample.toRaw (σ := S)))
  rw [List.length_map, ← hl] at hlen
  rw [WireFormat.pack]
  dsimp only
  rw [hcount, List.take_length, ← List.flatMap_map, splice, List.take_zero, List.nil_append, Nat.zero_add, hlen,
    List.drop_length, List.append_nil]

namespace Transmitter

variable [HostSample S] {t : Transmitter} {md : TxMetadata} {count : Nat} {b : List S} {q : UInt16} {ps : List Piece}

theorem framesOf_getElem? {j : Nat} {f : Bytes} (h : (t.framesOf md count b q ps)[j]? = some f) :
    ∃ p, ps[j]? = some p ∧ f = t.frameOf md count (q + UInt16.ofNat j) p b := by
  induction ps generalizing q j with
  | nil => cases h
  | cons p ps ih =>
    cases j with
    | zero =>
      cases h
      exact ⟨p, rfl, by rw [show q + UInt16.ofNat 0 = q from UInt16.add_zero q]⟩
    | succ j =>
      obtain ⟨p', hp, rfl⟩ := ih h
      refine ⟨p', hp, ?_⟩
      rw [UInt16.ofNat_add, UInt16.add_comm (UInt16.ofNat j), ← UInt16.add_assoc]
      rfl

end Transmitter

/-- The packets that carry the samples of a channel, one for each piece: what they say, how they
are numbered from `q` on, and what they hold. -/
structure Transmitter.Packets [HostSample S] (t : Transmitter) (md : TxMetadata) (count : Nat) (b : List S) (q : UInt16)
    (ps : List Piece) (fs : List Bytes) : Prop where
  length : fs.length = ps.length
  packet : ∀ j p f, ps[j]? = some p → fs[j]? = some f → ∃ h : Header,
    f = DataPacket.bytes t.format h (((b.drop p.start).take (p.stop - p.start)).map HostSample.toRaw) ∧
    h.kind = .data ∧ h.sequence = q + UInt16.ofNat j ∧
    (h.startOfBurst = true ↔ j = 0 ∧ md.startOfBurst = true) ∧ (h.hasTime = true ↔ j = 0 ∧ md.hasTime = true) ∧
    (h.hasTime = true → h.timestamp = md.time.startTick t.rate) ∧
    (h.endOfBurst = true ↔ j + 1 = ps.length ∧ md.endOfBurst = true) ∧ (h.endOfVector = true ↔ p.stop ∈ md.eov)
  whole : ∀ out : Bytes, out.length = count * t.format.sampleBytes →
    (fs.map (·.drop Header.size)).flatten = (t.format.pack (b.take count) out).2

theorem Transmitter.packets_framesOf [HostSample S] (t : Transmitter) (md : TxMetadata) {count : Nat} {b : List S}
    (q : UInt16) {ps : List Piece} {most : Nat} (hps : Piece.Exact most md.eov count ps) (hb : count ≤ b.length) :
    t.Packets md count b q ps (t.framesOf md count b q ps) where
  length := t.length_framesOf md count b q ps
  packet j p f hp hf := by
    obtain ⟨p', hp', rfl⟩ := framesOf_getElem? hf
    obtain rfl : p = p' := Option.some.inj (hp.symm.trans hp')
    have hpos : ∀ p ∈ ps, p.start < p.stop := by
      intro p hp
      have := (hps.size p hp).1
      omega
    have hfirst := hps.tiles.start_eq_iff hpos hp
    have hlast := hps.tiles.stop_eq_iff hpos hp
    obtain ⟨hs, he, hv, ht⟩ := t.flags_packetOf md count (q + UInt16.ofNat j) p
    refine ⟨t.packetOf md count (q + UInt16.ofNat j) p, rfl, t.kind_packetOf _ _ _ _, rfl, ?_, ?_, ?_, ?_, ?_⟩
    · rw [hs, Bool.and_eq_true, beq_iff_eq, hfirst]
    · rw [ht, Bool.and_eq_true, beq_iff_eq, hfirst]
    · intro htime
      rw [ht, Bool.and_eq_true, beq_iff_eq] at htime
      exact timestamp_packetOf htime.1 htime.2
    · rw [he, Bool.and_eq_true, beq_iff_eq, hlast]
    · rw [hv, hps.marked p (List.mem_of_getElem? hp)]
  whole out hl := by
    have hlen : (b.take count).length = count := List.length_take_of_le hb
    rw [Transmitter.payloads_framesOf hps.tiles hb, List.drop_zero, Nat.sub_zero,
      t.format.pack_whole (by rw [hl, hlen])]

/-- A call for which every frame was there, as the record has it. -/
theorem Transmitter.send_dealt [HostSample S] (terminals : Nat → Terminal σ) (wait : Nat) (md : TxMetadata)
    {t : Transmitter} (hpos : 0 < t.packetSamples) {buffers : List (List S)} {count : Nat}
    (hl : buffers.length = t.sequences.length) (hlong : ∀ b ∈ buffers, count ≤ b.length) (s : σ)
    (hfree : ∀ d ∈ t.dealsOf terminals buffers count wait md s, d.Free t.room) :
    ∃ (ys : List (Outlet Deal S)) (s' : σ),
      t.send terminals buffers count wait md s = (.ok count, { t with sequences := ys.map (·.sequence) }, s') ∧
      t.dealsOf terminals buffers count wait md s = ys.map (·.account) ∧
      List.Forall₂ (fun (x y : Outlet Deal S) => y.account.sent.map Frame.payload =
          x.account.sent.map Frame.payload ++ t.framesOf md count x.samples x.sequence (t.pieces md count) ∧
        y.sequence = x.sequence + UInt16.ofNat (t.pieces md count).length)
        (Outlet.row (List.replicate t.sequences.length {}) t.sequences buffers) ys := by
  have hempty : (List.replicate t.sequences.length ({} : Deal)).length = t.sequences.length := List.length_replicate
  -- the call in surroundings that begin with nothing on the record
  obtain ⟨done, k, ys, s', he, hdeals, hgo⟩ := Transmitter.send_goes (t := t)
    (s := ⟨s, List.replicate t.sequences.length {}⟩) (dealOutlets terminals) wait md count
    (List.replicate t.sequences.length {}) buffers hempty.symm (hl.trans hempty.symm) hlong rfl
  have hof : t.dealsOf terminals buffers count wait md s = ys.map (·.account) := by
    rw [Transmitter.dealsOf, he]
    exact hdeals
  have hfree' : ∀ y ∈ ys, y.account.Free t.room := fun y hy => hfree _ (hof ▸ List.mem_map_of_mem hy)
  obtain ⟨rfl, hys⟩ := hgo.dealt hfree' fun p hp => Transmitter.room_of_mem_pieces hpos hp
  refine ⟨ys, s'.inner, ?_, hof, hys⟩
  have hshown := Transmitter.send_shown (dealing_shows terminals) t buffers k wait md
    ⟨s, List.replicate t.sequences.length {}⟩
  rw [he] at hshown
  exact hshown

/-- If the frames asked for are there, a call sends all samples and reports so. On every channel
they go out in the same pieces, which are as long as packets may be wherever no vector ends,
and the packets are numbered on from the count of the channel. -/
theorem send_exact [HostSample S] (terminals : Nat → Terminal σ) (wait : Nat) (md : TxMetadata) {sizes : List Nat}
    {format : WireFormat} {rate : Float} {most : Nat} {t₀ : Transmitter}
    (ht : Transmitter.new sizes format rate most = .ok t₀) {qs : List UInt16} (hqs : qs.length = sizes.length)
    {buffers : List (List S)} {count : Nat} (hcount : 0 < count) (hl : buffers.length = sizes.length)
    (hlong : ∀ b ∈ buffers, count ≤ b.length) (s : σ)
    (hfree : List.Forall₂ Deal.Free sizes
      (({ t₀ with sequences := qs } : Transmitter).dealsOf terminals buffers count wait md s)) :
    let t : Transmitter := { t₀ with sequences := qs }
    let ps := Piece.cut t.packetSamples md.eov count
    (∃ s', t.send terminals buffers count wait md s =
      (.ok count, { t with sequences := qs.map (· + UInt16.ofNat ps.length) }, s')) ∧
    Piece.Exact t.packetSamples md.eov count ps ∧
    ∀ (i : Nat) (b : List S) (q : UInt16) (d : Deal), buffers[i]? = some b → qs[i]? = some q →
      (t.dealsOf terminals buffers count wait md s)[i]? = some d →
      t.Packets md count b q ps (d.sent.map Frame.payload) := by
  intro t ps
  obtain ⟨hmost, -, -, -, hroom⟩ := Transmitter.of_new ht
  have hlq : buffers.length = qs.length := hl.trans hqs.symm
  have hpieces : t.pieces md count = ps := if_neg (Nat.ne_of_gt hcount)
  have hexact : Piece.Exact t.packetSamples md.eov count ps := Piece.exact_cut hmost md.eov count
  obtain ⟨ys, s', he, hof, hys⟩ := Transmitter.send_dealt (t := t) terminals wait md hmost hlq hlong s fun d hd => by
    obtain ⟨n, hn, hd⟩ := forall₂_exists_mem hfree hd
    exact hd.mono (hroom n hn)
  rw [hpieces] at hys
  refine ⟨⟨s', ?_⟩, hexact, ?_⟩
  · have hempty : (List.replicate qs.length ({} : Deal)).length = qs.length := List.length_replicate
    have hrow := congrArg (List.map (· + UInt16.ofNat ps.length))
      (Outlet.map_row hempty.symm (hlq.trans hempty.symm)).2.1
    rw [List.map_map] at hrow
    rw [he, ← hrow, map_eq_of_forall₂ (hys.imp fun _ _ h => h.2)]
    rfl
  · intro i b q d hb hq hd
    obtain ⟨hi, -⟩ := List.getElem?_eq_some_iff.1 hq
    have hrel := forall₂_getElem? hys i
    rw [Outlet.getElem?_row (List.getElem?_replicate_of_lt hi) hq hb] at hrel
    rw [hof, List.getElem?_map, Option.map_eq_some_iff] at hd
    obtain ⟨y, hy, rfl⟩ := hd
    rw [hy] at hrel
    obtain ⟨⟨hsent, -⟩⟩ := hrel
    rw [hsent]
    exact t.packets_framesOf md q hexact (hlong b (List.mem_of_getElem? hb))

/-- Five samples on two links with frames for two samples and a list of vector ends that is not
in order: the second piece ends where a vector does. The count of one channel starts over. -/
theorem send_exact_unordered :
    let b : List (Iq Int16) := [⟨1, 2⟩, ⟨3, 4⟩, ⟨5, 6⟩, ⟨7, 8⟩, ⟨9, 10⟩]
    let md : TxMetadata := { startOfBurst := true, endOfBurst := true, eov := [9, 3, 0, 3] }
    let ps : List Piece := [⟨0, 2, false⟩, ⟨2, 3, true⟩, ⟨3, 5, false⟩]
    let t : Transmitter := { sequences := [65534, 7], format := .sc16, rate := 1, packetSamples := 2 }
    Transmitter.new [26, 31] .sc16 1 8 = .ok { t with sequences := [0, 0] } ∧
      ∃ ls,
        [{ sendFrameSize := 26, sendFrames := 4 }, { sendFrameSize := 31, sendFrames := 3 }].mapM Link.new = .ok ls ∧
        (∃ s', t.send Terminal.host [b, b.reverse] 5 0 md ls = (.ok 5, { t with sequences := [1, 10] }, s')) ∧
        Piece.Exact 2 md.eov 5 ps ∧
        ∀ d, (t.dealsOf Terminal.host [b, b.reverse] 5 0 md ls)[0]? = some d →
          t.Packets md 5 b 65534 ps (d.sent.map Frame.payload) := by
  intro b md ps t
  have ht : Transmitter.new [26, 31] .sc16 1 8 = .ok { t with sequences := [0, 0] } := rfl
  obtain ⟨ls, hls, hfree⟩ : ∃ ls, [{ sendFrameSize := 26, sendFrames := 4 },
      { sendFrameSize := 31, sendFrames := 3 }].mapM Link.new = .ok ls ∧
      List.Forall₂ Deal.Free [26, 31] (t.dealsOf Terminal.host [b, b.reverse] 5 0 md ls) := by
    refine ⟨_, rfl, ?_⟩
    decide +kernel
  obtain ⟨hsend, hexact, hpackets⟩ := send_exact Terminal.host 0 md ht
    (show ([65534, 7] : List UInt16).length = 2 from rfl) (show 0 < 5 by decide)
    (show [b, b.reverse].length = 2 from rfl) (by decide) ls hfree
  rw [show Piece.cut 2 md.eov 5 = ps from rfl] at hsend hexact hpackets
  rw [show ([65534, 7] : List UInt16).map (· + UInt16.ofNat ps.length) = [1, 10] by decide] at hsend
  exact ⟨ht, ls, hls, hsend, hexact, fun d hd => hpackets 0 b 65534 d rfl rfl hd⟩

end RadioStream
