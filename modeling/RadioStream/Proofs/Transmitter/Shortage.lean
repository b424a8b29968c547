import RadioStream.Proofs.Capacity
import RadioStream.Proofs.Transmitter.Send
/-!
# A transmission cut short

Links run out of frames at any time and not all at once. A send call then stops before the
piece for which some link has none, and gives the frames back that others had for it.

`Outlet.Goes.lane` follows one lane through a call, whichever channel is short, and
`Transmission.Level` is what calls keep of a transmitter whose links others use as well. From
that, `send_in_step`: all channels have sent the same pieces and go on with the same number.
-/

namespace RadioStream

/-! ## One lane -/

theorem Lane.Placed.stocked {frames size room : Nat} {held : List Nat} {l : Lane} (h : l.Placed frames held)
    (hs : l.Sized size) (hroom : room ≤ size) : l.Stocked room 0 [] where
  conserved := by
    have := h.length_add
    rw [h.way, List.length_nil]
    omega
  roomy f hf := by
    rw [List.append_nil] at hf
    rw [hs f hf]
    exact hroom

/-- A lane takes back what it gave, whatever was written into it. -/
theorem Lane.Placed.give_back {frames : Nat} {held : List Nat} {l l' : Lane} {f g : Frame} (h : l.Placed frames held)
    (ha : l.acquire = (some f, l')) (hg : g.slot = f.slot) : (l'.submit g).Placed frames held := by
  have hp := h.acquire ha
  rw [← hg] at hp
  by_cases hu : g.used = 0
  · rw [submit_empty hu]
    exact hp.recycle.2.2
  · exact (hp.submit hu).2.2

/-- The frames of a lane are of one size, and each is at home, on its way or held. -/
structure Lane.Sound (frames size : Nat) (held : List Nat) (l : Lane) : Prop where
  placed : l.Placed frames held
  sized : l.Sized size

/-- Frames went out on a lane: they wait behind those that waited before, and the other frames are
at home. -/
structure Lane.Advanced (fs : List Bytes) (l l' : Lane) : Prop where
  pending : l'.pending = l.pending ++ fs
  enough : fs.length ≤ l.home.idle.items.length
  idle : (l'.home.idle.items.map Frame.slot).Perm ((l.home.idle.items.drop fs.length).map Frame.slot)

namespace Outlet

variable {S : Type} [HostSample S] {t : Transmitter} {md : TxMetadata} {count room frames size : Nat} {held : List Nat}
  {ps done : List Piece} {k : Nat} {x y : Outlet Lane S} {xs ys : List (Outlet Lane S)}

theorem SendsAll.idle (h : SendsAll Lane.traffic (t.writer md count) ps x y) (hx : x.account.Sound frames size held)
    (hfit : ∀ p ∈ ps, Header.size + (p.stop - p.start) * t.format.sampleBytes ≤ size) :
    y.account.Sound frames size held ∧
      ∃ gone, x.account.home.idle.items = gone ++ y.account.home.idle.items ∧ gone.length = ps.length := by
  refine ⟨h.keeps (t.length_writer md count) ?_ hx, (h.posted (hx.placed.stocked hx.sized le_rfl) hfit).2⟩
  rintro l f l₁ g _ hl ha hslot hlen rfl
  obtain ⟨hf, hs⟩ := hl.sized.acquire ha
  exact ⟨hl.placed.give_back ha hslot, hs.submit (hlen.trans hf)⟩

/-- A piece that finds no frame leaves every lane with the idle frames that it had. -/
theorem Missed.idle {S : Type} {xs ys : List (Outlet Lane S)} (h : Missed Lane.traffic xs ys) :
    List.Forall₂ (fun x y => ∀ frames size held, Lane.Sound frames size held x.account →
      y.account.Sound frames size held ∧
        (y.account.home.idle.items.map Frame.slot).Perm (x.account.home.idle.items.map Frame.slot)) xs ys := by
  refine h.each.imp ?_
  rintro x y (⟨hr, -⟩ | rfl | ⟨f, l, ha, hg, -⟩) frames size held hx
  · have hl : y.account = x.account := (Lane.acquire_none hr).2
    rw [hl]
    exact ⟨hx, .refl _⟩
  · exact ⟨hx, .refl _⟩
  · have hg : y.account = l.submit (f.withUsed 0) := hg
    obtain ⟨hf, hs⟩ := hx.sized.acquire ha
    rw [hg]
    refine ⟨⟨hx.placed.give_back ha rfl, hs.submit hf⟩, ?_⟩
    -- the frame comes home behind the others
    have hp : l.Placed frames (f.slot :: held) := hx.placed.acquire ha
    obtain ⟨hi, -, -⟩ := Lane.Placed.recycle (f := f.withUsed 0) hp
    rw [Lane.Placed.submit_empty (Nat.zero_min _), hi, (Lane.acquire_some ha).1, List.map_append, List.map_cons]
    exact List.perm_append_singleton _ _

/-- What a call does to each lane, whichever of them is short of frames. -/
theorem Goes.lane (h : Goes Lane.traffic (t.writer md count) count ps xs done k ys)
    (hfit : ∀ p ∈ ps, Header.size + (p.stop - p.start) * t.format.sampleBytes ≤ room) :
    List.Forall₂ (fun x y => ∀ frames size held, room ≤ size → x.account.Sound frames size held →
      y.account.Sound frames size held ∧ y.sequence = x.sequence + UInt16.ofNat done.length ∧
        x.account.Advanced (t.framesOf md count x.samples x.sequence done) y.account) xs ys := by
  have hidle : List.Forall₂ (fun x y => ∀ frames size held, room ≤ size → x.account.Sound frames size held →
      y.account.Sound frames size held ∧ done.length ≤ x.account.home.idle.items.length ∧
        (y.account.home.idle.items.map Frame.slot).Perm ((x.account.home.idle.items.drop done.length).map Frame.slot))
      xs ys := by
    cases h with
    | whole hys =>
      refine hys.imp fun x y hxy frames size held hroom hx => ?_
      obtain ⟨hy, gone, hg, hl⟩ := hxy.idle hx fun p hp => (hfit p hp).trans hroom
      refine ⟨hy, ?_, ?_⟩
      · rw [hg, ← hl, List.length_append]
        exact Nat.le_add_right _ _
      · rw [hg, ← hl, List.drop_left]
    | short he hzs hm =>
      refine forall₂_comp hzs hm.idle ?_
      intro x z y hxz hzy frames size held hroom hx
      obtain ⟨hz, gone, hg, hl⟩ := hxz.idle hx fun p hp => (hfit p (he ▸ List.mem_append_left _ hp)).trans hroom
      obtain ⟨hy, hperm⟩ := hzy frames size held hz
      refine ⟨hy, ?_, ?_⟩
      · rw [hg, ← hl, List.length_append]
        exact Nat.le_add_right _ _
      · rw [hg, ← hl, List.drop_left]
        exact hperm
  refine (h.posted hfit).mp ?_ hidle
  intro x y hposted hidle frames size held hroom hx
  obtain ⟨hy, hle, hperm⟩ := hidle frames size held hroom hx
  obtain ⟨-, hpending, hseq⟩ := hposted [] (hx.placed.stocked hx.sized hroom)
  have hlen := t.length_framesOf md count x.samples x.sequence done
  rw [hlen] at hseq
  exact ⟨hy, hseq, hpending, hlen ▸ hle, hlen ▸ hperm⟩

/-- A call that stops early has used up the frames of some lane. -/
theorem Goes.exists_short (h : Goes Lane.traffic (t.writer md count) count ps xs done k ys) (hk : k ≠ count)
    (hfit : ∀ p ∈ ps, Header.size + (p.stop - p.start) * t.format.sampleBytes ≤ room)
    (hxs : ∀ x ∈ xs, ∃ frames size held, room ≤ size ∧ x.account.Sound frames size held) :
    ∃ x ∈ xs, x.account.home.idle.items.length = done.length := by
  cases h with
  | whole _ => exact absurd rfl hk
  | short he hzs hm =>
    obtain ⟨z, hz, y, -, hr⟩ := hm.exists_refused
    obtain ⟨x, hx, hxz⟩ := forall₂_exists_mem hzs hz
    obtain ⟨frames, size, held, hroom, hsound⟩ := hxs x hx
    obtain ⟨-, gone, hg, hl⟩ := hxz.idle hsound fun p hp => (hfit p (he ▸ List.mem_append_left _ hp)).trans hroom
    refine ⟨x, hx, ?_⟩
    rw [hg, (Lane.acquire_none hr).1, List.append_nil, hl]

end Outlet

/-! ## Links that others use as well -/

/-- An end of the link of a bench. -/
def Terminal.onBench (e : End) : Terminal Bench where
  receive _ b := match b.link with
    | some l => ((l.receive e).1, { b with link := some (l.receive e).2 })
    | none => (none, b)
  recycle f b := { b with link := b.link.map (·.recycle e f) }
  acquire _ b := match b.link with
    | some l => ((l.acquire e).1, { b with link := some (l.acquire e).2 })
    | none => (none, b)
  submit f b := { b with link := b.link.map (·.submit e f) }
  backlog b := (b.link.map (·.pending e)).getD 0

/-- A bench whose link has another lane towards an end. -/
def Bench.withLane (e : End) (c : Bench × Link) (lane : Lane) : Bench :=
  { c.1 with link := some (c.2.withInbound e lane) }

theorem through_onBench (e : End) : (Terminal.onBench e.other).Through (Bench.withLane e) where
  acquire _ c lane := by cases e <;> rfl
  submit f c lane := by cases e <;> rfl

namespace Bench

/-- The packets that wait on the link of a bench on their way to an end. -/
def pendingTo (b : Bench) (e : End) : List Bytes := (b.link.map fun l => (l.inbound e).pending).getD []

/-- The idle frames for what goes to an end. -/
def idleTo (b : Bench) (e : End) : List Frame := (b.link.map fun l => (l.inbound e).home.idle.items).getD []

/-- What a call leaves of a bench: packets wait behind those that waited before, the other frames
are at home, and what is held is not touched. -/
structure Advanced (e : End) (fs : List Bytes) (b b' : Bench) : Prop where
  pending : b'.pendingTo e = b.pendingTo e ++ fs
  enough : fs.length ≤ (b.idleTo e).length
  idle : ((b'.idleTo e).map Frame.slot).Perm (((b.idleTo e).drop fs.length).map Frame.slot)
  loans : b'.loans = b.loans

end Bench

/-! ## What all channels have in common -/

/-- What the packets of pieces have on every channel: the header, but for the length, and the
piece. -/
def Transmitter.labels (t : Transmitter) (md : TxMetadata) (count : Nat) : UInt16 → List Piece → List (Header × Piece)
  | _, [] => []
  | q, p :: ps => (t.packetOf md count q p, p) :: labels t md count (q + 1) ps

/-- A packet with a header, and as many samples as there are in a piece. -/
def Labelled (format : WireFormat) (c : Header × Piece) (f : Bytes) : Prop :=
  ∃ samples, samples.length = c.2.stop - c.2.start ∧ f = DataPacket.bytes format c.1 samples

namespace Transmitter

variable {t : Transmitter} {md : TxMetadata} {count : Nat} {q : UInt16} {ps : List Piece}

theorem length_labels : (t.labels md count q ps).length = ps.length := by
  induction ps generalizing q with
  | nil => rfl
  | cons p ps ih => rw [labels, List.length_cons, ih, List.length_cons]

theorem labelled_framesOf {S : Type} [HostSample S] {b : List S} {most start stop : Nat}
    (hps : Piece.Tiles most start ps stop) (hb : stop ≤ b.length) :
    List.Forall₂ (Labelled t.format) (t.labels md count q ps) (t.framesOf md count b q ps) := by
  induction ps generalizing start q with
  | nil => exact .nil
  | cons p ps ih =>
    obtain ⟨rfl, hle, -, hr⟩ := hps
    have hstop := hr.le
    refine .cons ⟨_, ?_, rfl⟩ (ih hr)
    rw [List.length_map, List.length_take, List.length_drop]
    exact Nat.min_eq_left (Nat.sub_le_sub_right (hstop.trans hb) _)

end Transmitter

/-- A transmitter on the links of benches, and the packets that its calls have put on each link. -/
structure Transmission where
  transmitter : Transmitter
  benches : List Bench
  posted : List (List Bytes)

namespace Transmission

/-- A call, or what somebody else does with a link and the frames of it. -/
inductive Move where
  | send {S : Type} [HostSample S] (buffers : List (List S)) (count wait : Nat) (md : TxMetadata)
  | use (i : Nat) (a : BufferAction)

/-- A transmitter on links that nobody has used. -/
def fresh (t : Transmitter) (ls : List Link) : Transmission :=
  ⟨t, ls.map fun l => { pools := [], link := some l }, ls.map fun _ => []⟩

/-- The packets that wait on a bench after a call and did not before. -/
def added (e : End) (b b' : Bench) : List Bytes := (b'.pendingTo e).drop (b.pendingTo e).length

/-- A bench and its link have all frames that they were made with, in their sizes. -/
structure Kept (g : Geometry) (c : Bench × Link) : Prop where
  keeps : c.1.Keeps g.framesTo (fun _ => []) c.2
  sized : c.1.Sized g.sizeTo

/-! ## One bench -/

section OneBench

variable {g : Geometry} {c : Bench × Link} {lane : Lane} {fs : List Bytes}

theorem Kept.act {b : Bench} {l : Link} (h : Kept g (b, l)) (a : BufferAction) : ∃ l', Kept g (b.act a, l') := by
  obtain ⟨l', hm⟩ := h.keeps.act a
  exact ⟨l', hm.keeps, h.sized.act a⟩

theorem Kept.fresh {l : Link} (h : Link.new g = .ok l) : Kept g ({ pools := [], link := some l }, l) :=
  ⟨(Custody.Kept.fresh h).keeps, Custody.sized_run h []⟩

variable (h : Kept g c)

include h

theorem Kept.sound (e : End) : (c.2.inbound e).Sound (g.framesTo e) (g.sizeTo e) (c.1.slots e) :=
  ⟨h.keeps.placed e, h.sized.link c.2 h.keeps.link e⟩

theorem Kept.withLane_self (e : End) : Bench.withLane e c (c.2.inbound e) = c.1 := by
  have hl : c.2.withInbound e (c.2.inbound e) = c.2 := by cases e <;> rfl
  rw [Bench.withLane, hl, ← h.keeps.link]

theorem Kept.withLane {e : End} (hl : lane.Sound (g.framesTo e) (g.sizeTo e) (c.1.slots e)) :
    Kept g (Bench.withLane e c lane, c.2.withInbound e lane) where
  keeps := h.keeps.withInbound hl.placed fun _ _ => rfl
  sized := by
    refine ⟨?_, h.sized.loans⟩
    rintro _ ⟨⟩
    exact (h.sized.link c.2 h.keeps.link).withInbound hl.sized

theorem Kept.advanced {e : End} (hl : (c.2.inbound e).Advanced fs lane) :
    c.1.Advanced e fs (Bench.withLane e c lane) where
  pending := by simpa [Bench.pendingTo, Bench.withLane, h.keeps.link] using hl.pending
  enough := by simpa [Bench.idleTo, h.keeps.link] using hl.enough
  idle := by simpa [Bench.idleTo, Bench.withLane, h.keeps.link] using hl.idle
  loans := rfl

end OneBench

/-! ## All benches -/

section AllBenches

variable {S : Type} {e : End} {gs : List Geometry}

theorem exists_links {bs : List Bench} (h : List.Forall₂ (fun g b => ∃ l, Kept g (b, l)) gs bs) :
    ∃ cs : List (Bench × Link), cs.map Prod.fst = bs ∧ List.Forall₂ Kept gs cs := by
  induction h with
  | nil => exact ⟨[], rfl, .nil⟩
  | cons hb _ ih =>
    obtain ⟨l, hl⟩ := hb
    obtain ⟨cs, rfl, hcs⟩ := ih
    exact ⟨(_, l) :: cs, rfl, .cons hl hcs⟩

/-- What goes out on the lanes of benches, as it is seen from the benches. -/
theorem exists_kept_of_lanes {cs : List (Bench × Link)} (hcs : List.Forall₂ Kept gs cs) {room m : Nat}
    (hroom : ∀ g ∈ gs, room ≤ g.sizeTo e) {q : UInt16} {f : UInt16 → List S → List Bytes} {buffers : List (List S)}
    (hl : buffers.length = gs.length) {ys : List (Outlet Lane S)}
    (h : List.Forall₂ (fun (x y : Outlet Lane S) => ∀ frames size held, room ≤ size → x.account.Sound frames size held →
        y.account.Sound frames size held ∧ y.sequence = x.sequence + UInt16.ofNat m ∧
          x.account.Advanced (f x.sequence x.samples) y.account)
      (Outlet.row (cs.map (·.2.inbound e)) (List.replicate cs.length q) buffers) ys) :
    List.Forall₂ (fun g b => ∃ l, Kept g (b, l)) gs (List.zipWith (Bench.withLane e) cs (ys.map (·.account))) ∧
      ys.map (·.sequence) = List.replicate cs.length (q + UInt16.ofNat m) ∧
      List.Forall₂ (fun (c : Bench × List S) b => c.1.Advanced e (f q c.2) b) ((cs.map Prod.fst).zip buffers)
        (List.zipWith (Bench.withLane e) cs (ys.map (·.account))) := by
  induction hcs generalizing buffers ys with
  | nil =>
    cases h
    exact ⟨.nil, rfl, .nil⟩
  | @cons g c gs cs hc _ ih =>
    obtain ⟨b, buffers, rfl⟩ := List.exists_cons_of_length_eq_add_one hl
    obtain ⟨hg, hgs⟩ := List.forall_mem_cons.1 hroom
    cases h with
    | cons hy hys =>
      obtain ⟨hkept, hseq, hadv⟩ := ih hgs (Nat.succ.inj hl) hys
      obtain ⟨hsound, hq, hlane⟩ := hy _ _ _ hg (hc.sound e)
      refine ⟨.cons ⟨_, hc.withLane hsound⟩ hkept, ?_, .cons (hc.advanced hlane) hadv⟩
      rw [List.map_cons, hseq, hq]
      rfl

theorem zipWith_withLane_self {cs : List (Bench × Link)} (h : List.Forall₂ Kept gs cs) :
    List.zipWith (Bench.withLane e) cs (cs.map fun c => c.2.inbound e) = cs.map Prod.fst := by
  induction h with
  | nil => rfl
  | cons hc _ ih => rw [List.map_cons, List.zipWith_cons_cons, ih, hc.withLane_self e, List.map_cons]

/-- A call that stops early has used up what was idle on one of the benches. -/
theorem exists_idle_of_goes [HostSample S] {cs : List (Bench × Link)} (hcs : List.Forall₂ Kept gs cs) {room : Nat}
    (hroom : ∀ g ∈ gs, room ≤ g.sizeTo e) {qs : List UInt16} {buffers : List (List S)} (hq : qs.length = cs.length)
    (hl : buffers.length = cs.length) {t : Transmitter} {md : TxMetadata} {count k : Nat} {ps done : List Piece}
    {ys : List (Outlet Lane S)}
    (h : Outlet.Goes Lane.traffic (t.writer md count) count ps (Outlet.row (cs.map fun c => c.2.inbound e) qs buffers)
      done k ys) (hk : k ≠ count)
    (hfit : ∀ p ∈ ps, Header.size + (p.stop - p.start) * t.format.sampleBytes ≤ room) :
    ∃ c ∈ cs, (c.1.idleTo e).length = done.length := by
  -- the channels of the call are those of the benches
  have hrow : ∀ o ∈ Outlet.row (cs.map fun c => c.2.inbound e) qs buffers,
      ∃ g ∈ gs, ∃ c ∈ cs, Kept g c ∧ c.2.inbound e = o.account := by
    intro o ho
    have hmem := List.mem_map_of_mem (f := fun o : Outlet Lane S => o.account) ho
    rw [(Outlet.map_row (by rw [hq, List.length_map]) (by rw [hl, List.length_map])).1, List.mem_map] at hmem
    obtain ⟨c, hc, hco⟩ := hmem
    obtain ⟨g, hg, hgc⟩ := forall₂_exists_mem hcs hc
    exact ⟨g, hg, c, hc, hgc, hco⟩
  obtain ⟨o, ho, hidle⟩ := h.exists_short hk hfit fun o ho => by
    obtain ⟨g, hg, c, -, hgc, hco⟩ := hrow o ho
    exact ⟨_, _, _, hroom g hg, hco ▸ hgc.sound e⟩
  obtain ⟨g, -, c, hc, hgc, hco⟩ := hrow o ho
  refine ⟨c, hc, ?_⟩
  rw [Bench.idleTo, hgc.keeps.link, Option.map_some, Option.getD_some, hco, hidle]

/-- What was added by a call is what went out. -/
theorem added_eq {f : List S → List Bytes} {bs bs' : List Bench} {buffers : List (List S)}
    (hl : buffers.length = bs.length)
    (h : List.Forall₂ (fun (c : Bench × List S) b => c.1.Advanced e (f c.2) b) (bs.zip buffers) bs') :
    List.zipWith (added e) bs bs' = buffers.map f := by
  induction bs generalizing buffers bs' with
  | nil => rw [List.eq_nil_of_length_eq_zero hl, List.zipWith_nil_left, List.map_nil]
  | cons b bs ih =>
    obtain ⟨buffer, buffers, rfl⟩ := List.exists_cons_of_length_eq_add_one hl
    cases h with
    | cons hb hr =>
      rw [List.zipWith_cons_cons, List.map_cons, ih (Nat.succ.inj hl) hr, added, hb.pending, List.drop_left]

end AllBenches

/-! ## Channels in step -/

variable {S : Type} [HostSample S]

/-- A call of the transmitter, which sends to an end of the links. -/
def send (e : End) (x : Transmission) (buffers : List (List S)) (count wait : Nat) (md : TxMetadata) :
    Except Error Nat × Transmitter × List Bench :=
  x.transmitter.send (Terminal.within · (.onBench e.other)) buffers count wait md x.benches

def step (e : End) (x : Transmission) : Move → Transmission
  | @Move.send _ _ buffers count wait md =>
    let (_, t, bs) := x.send e buffers count wait md
    ⟨t, bs, List.zipWith (· ++ ·) x.posted (List.zipWith (added e) x.benches bs)⟩
  | .use i a => { x with benches := x.benches.modify i (·.act a) }

def run (e : End) (x : Transmission) (as : List Move) : Transmission := as.foldl (step e) x

/-- All channels have sent packets of the same pieces with the same headers, and go on with the
same number. -/
structure Level (t₀ : Transmitter) (gs : List Geometry) (sent : List (Header × Piece)) (x : Transmission) : Prop where
  transmitter : x.transmitter = { t₀ with sequences := List.replicate gs.length (UInt16.ofNat sent.length) }
  benches : List.Forall₂ (fun g b => ∃ l, Kept g (b, l)) gs x.benches
  posted : x.posted.length = gs.length
  packets : ∀ fs ∈ x.posted, List.Forall₂ (Labelled t₀.format) sent fs

/-- A call put some of its pieces on every channel, with `k` samples of each buffer. If they are
not all then some channel had no frame for another. -/
structure Put (e : End) (t₀ : Transmitter) (md : TxMetadata) (count : Nat) (buffers : List (List S)) (q : UInt16)
    (x : Transmission) (done : List Piece) (k : Nat) (y : Transmission) : Prop where
  first : done <+: t₀.pieces md count
  tiles : Piece.Tiles t₀.packetSamples 0 done k
  most : k ≤ count
  samples : ∀ b ∈ buffers, ((t₀.framesOf md count b q done).map (·.drop Header.size)).flatten =
    ((b.take k).map HostSample.toRaw).flatMap t₀.format.encode
  benches : List.Forall₂ (fun (c : Bench × List S) b => c.1.Advanced e (t₀.framesOf md count c.2 q done) b)
    (x.benches.zip buffers) y.benches
  posted : y.posted = List.zipWith (fun fs b => fs ++ t₀.framesOf md count b q done) x.posted buffers
  short : k ≠ count → ∃ b ∈ x.benches, (b.idleTo e).length = done.length

variable {e : End} {t₀ : Transmitter} {gs : List Geometry} {sent : List (Header × Piece)} {x : Transmission}

/-- Channels in step stay in step when one of them is used. -/
theorem Level.use (h : x.Level t₀ gs sent) (i : Nat) (a : BufferAction) :
    (x.step e (.use i a)).Level t₀ gs sent where
  transmitter := h.transmitter
  benches := by
    have hm := forall₂_modify h.benches i (f := id) (g := fun b => b.act a) fun g b ⟨l, hl⟩ => hl.act a
    rwa [List.modify_id] at hm
  posted := h.posted
  packets := h.packets

section Calls

variable {buffers : List (List S)} {count wait : Nat} {md : TxMetadata}

theorem step_send {r : Except Error Nat} {t : Transmitter} {bs : List Bench}
    (h : x.send e buffers count wait md = (r, t, bs)) : x.step e (.send buffers count wait md) =
      ⟨t, bs, List.zipWith (· ++ ·) x.posted (List.zipWith (added e) x.benches bs)⟩ := by
  rw [step, h]

/-- What a call puts on every channel keeps them in step. -/
theorem Put.level {done : List Piece} {k : Nat} {y : Transmission} (h : x.Level t₀ gs sent)
    (hput : x.Put e t₀ md count buffers (UInt16.ofNat sent.length) done k y) (hl : buffers.length = gs.length)
    (hlong : ∀ b ∈ buffers, count ≤ b.length) (ht : y.transmitter =
      { t₀ with sequences := List.replicate gs.length (UInt16.ofNat sent.length + UInt16.ofNat done.length) })
    (hb : List.Forall₂ (fun g b => ∃ l, Kept g (b, l)) gs y.benches) :
    y.Level t₀ gs (sent ++ t₀.labels md count (UInt16.ofNat sent.length) done) where
  transmitter := by rw [ht, List.length_append, Transmitter.length_labels, UInt16.ofNat_add]
  benches := hb
  posted := by rw [hput.posted, List.length_zipWith, h.posted, hl, Nat.min_self]
  packets := by
    rw [hput.posted]
    refine forall_mem_zipWith fun fs hfs b hb => ?_
    exact List.rel_append (h.packets fs hfs)
      (Transmitter.labelled_framesOf hput.tiles (hput.most.trans (hlong b hb)))

variable (wait md)

/-- A call that the arguments forbid does nothing. -/
theorem Level.misuse (h : x.Level t₀ gs sent) (hbad : ¬(buffers.length = gs.length ∧ ∀ b ∈ buffers, count ≤ b.length)) :
    (∃ err, (x.send e buffers count wait md).1 = .error err) ∧ x.step e (.send buffers count wait md) = x := by
  have hseq : x.transmitter.sequences.length = gs.length := by rw [h.transmitter, List.length_replicate]
  rw [← hseq] at hbad
  obtain ⟨err, he⟩ := Transmitter.send_misuse (Terminal.within · (.onBench e.other)) wait md x.benches hbad
  have he : x.send e buffers count wait md = (.error err, x.transmitter, x.benches) := he
  have hposted : List.zipWith (· ++ ·) x.posted (List.zipWith (added e) x.benches x.benches) = x.posted := by
    have hlen : x.posted.length = x.benches.length := h.posted.trans h.benches.length_eq
    refine List.ext_getElem (by simp [hlen]) fun i h₁ h₂ => ?_
    rw [List.getElem_zipWith, List.getElem_zipWith, added, List.drop_length, List.append_nil]
  exact ⟨⟨err, by rw [he]⟩, by rw [step_send he, hposted]⟩

/-- A call that they allow puts the same pieces on every channel. -/
theorem Level.send (h : x.Level t₀ gs sent) (hpos : 0 < t₀.packetSamples) (hroom : ∀ g ∈ gs, t₀.room ≤ g.sizeTo e)
    (hl : buffers.length = gs.length) (hlong : ∀ b ∈ buffers, count ≤ b.length) :
    ∃ done k, (x.send e buffers count wait md).1 = .ok k ∧
      Put e t₀ md count buffers (UInt16.ofNat sent.length) x done k (x.step e (.send buffers count wait md)) ∧
      (x.step e (.send buffers count wait md)).Level t₀ gs
        (sent ++ t₀.labels md count (UInt16.ofNat sent.length) done) := by
  obtain ⟨cs, hcs, hkept⟩ := exists_links h.benches
  have hlen : cs.length = gs.length := hkept.length_eq.symm
  obtain ⟨done, k, ys, bs, he, ⟨-, rfl⟩, hgo⟩ := Transmitter.send_goes (t := x.transmitter) (s := x.benches)
    (laneOutlets (through_onBench e) cs) wait md count (cs.map fun c => c.2.inbound e) buffers
    (by rw [h.transmitter, List.length_replicate, List.length_map, hlen]) (by rw [List.length_map, hl, hlen]) hlong
    ⟨List.length_map _, by rw [zipWith_withLane_self hkept, hcs]⟩
  have he : x.send e buffers count wait md = _ := he
  rw [h.transmitter, ← hlen] at hgo
  have hgo : Outlet.Goes Lane.traffic (t₀.writer md count) count (t₀.pieces md count) _ done k ys := hgo
  have hfit : ∀ p ∈ t₀.pieces md count, Header.size + (p.stop - p.start) * t₀.format.sampleBytes ≤ t₀.room :=
    fun p hp => Transmitter.room_of_mem_pieces hpos hp
  obtain ⟨htiles, hk, hfirst⟩ := hgo.tiles (t₀.tiles_pieces md count hpos)
  obtain ⟨hbenches, hseq, hadv⟩ := exists_kept_of_lanes (f := fun q b => t₀.framesOf md count b q done) hkept hroom hl
    (hgo.lane hfit)
  rw [hcs] at hadv
  have hposted : List.zipWith (· ++ ·) x.posted (List.zipWith (added e) x.benches
      (List.zipWith (Bench.withLane e) cs (ys.map (·.account)))) =
      List.zipWith (fun fs b => fs ++ t₀.framesOf md count b (UInt16.ofNat sent.length) done) x.posted buffers := by
    rw [added_eq (f := fun b => t₀.framesOf md count b (UInt16.ofNat sent.length) done)
      (hl.trans h.benches.length_eq) hadv, List.zipWith_map_right]
  have hput : x.Put e t₀ md count buffers (UInt16.ofNat sent.length) done k
      (x.step e (.send buffers count wait md)) := by
    rw [step_send he, hposted]
    refine ⟨hfirst, htiles, hk, fun b hb => ?_, hadv, rfl, fun hne => ?_⟩
    · rw [Transmitter.payloads_framesOf htiles (hk.trans (hlong b hb)), List.drop_zero, Nat.sub_zero]
    · obtain ⟨c, hc, hidle⟩ := exists_idle_of_goes hkept hroom List.length_replicate (hl.trans hlen.symm) hgo hne hfit
      exact ⟨c.1, hcs ▸ List.mem_map_of_mem hc, hidle⟩
  refine ⟨done, k, by rw [he], hput, hput.level h hl hlong ?_ ?_⟩
  · rw [step_send he, hseq, h.transmitter, hlen]
  · rw [step_send he]
    exact hbenches

end Calls

/-! ## Runs -/

theorem Level.fresh {ls : List Link} {format : WireFormat} {rate : Float} {most : Nat} (hls : gs.mapM Link.new = .ok ls)
    (ht : Transmitter.new (ls.map fun l => (l.geometry e.other).sendFrameSize) format rate most = .ok t₀) :
    (fresh t₀ ls).Level t₀ gs [] ∧ 0 < t₀.packetSamples ∧ ∀ g ∈ gs, t₀.room ≤ g.sizeTo e := by
  obtain ⟨hpos, -, -, hseq, hroom⟩ := Transmitter.of_new ht
  have hnew := forall₂_of_mapM hls
  have hsizes : ls.map (fun l => (l.geometry e.other).sendFrameSize) = gs.map (·.sizeTo e) := by
    refine map_eq_of_forall₂ (hnew.imp fun g l hl => ?_)
    rw [← Lane.frameSize_of_new (Link.lane_of_new hl e)]
    cases e <;> rfl
  rw [hsizes] at hseq hroom
  refine ⟨⟨?_, ?_, ?_, ?_⟩, hpos, fun g hg => hroom _ (List.mem_map_of_mem hg)⟩
  · rw [List.map_map, Function.comp_def, List.map_const'] at hseq
    show t₀ = { t₀ with sequences := List.replicate gs.length 0 }
    rw [← hseq]
  · rw [Transmission.fresh, List.forall₂_map_right_iff]
    exact hnew.imp fun g l hl => ⟨l, .fresh hl⟩
  · rw [Transmission.fresh, List.length_map, hnew.length_eq]
  · intro fs hfs
    obtain ⟨-, -, rfl⟩ := List.mem_map.1 hfs
    exact .nil

theorem Level.step (h : x.Level t₀ gs sent) (hpos : 0 < t₀.packetSamples) (hroom : ∀ g ∈ gs, t₀.room ≤ g.sizeTo e)
    (a : Move) : ∃ more, (x.step e a).Level t₀ gs (sent ++ more) := by
  cases a with
  | use i a => exact ⟨[], (List.append_nil sent).symm ▸ h.use i a⟩
  | send buffers count wait md =>
    by_cases hok : buffers.length = gs.length ∧ ∀ b ∈ buffers, count ≤ b.length
    · obtain ⟨done, k, -, -, hy⟩ := h.send wait md hpos hroom hok.1 hok.2
      exact ⟨_, hy⟩
    · rw [(h.misuse wait md hok).2]
      exact ⟨[], (List.append_nil sent).symm ▸ h⟩

theorem Level.run (h : x.Level t₀ gs sent) (hpos : 0 < t₀.packetSamples) (hroom : ∀ g ∈ gs, t₀.room ≤ g.sizeTo e)
    (as : List Move) : ∃ more, (x.run e as).Level t₀ gs (sent ++ more) := by
  induction as generalizing x sent with
  | nil => exact ⟨[], (List.append_nil sent).symm ▸ h⟩
  | cons a as ih =>
    obtain ⟨more, hx⟩ := h.step hpos hroom a
    obtain ⟨rest, hy⟩ := ih hx
    exact ⟨more ++ rest, List.append_assoc sent more rest ▸ hy⟩

end Transmission

/-- Links run out of frames at any time. However often they did, all channels of a transmitter have
sent packets of the same pieces and go on with the same number, and another call keeps it so. It
reports the samples that it put on every channel, and frames that it took for a piece that some
channel had no frame for are back where they were. -/
theorem send_in_step {S : Type} [HostSample S] {gs : List Geometry} {ls : List Link} (hls : gs.mapM Link.new = .ok ls)
    (e : End) {format : WireFormat} {rate : Float} {most : Nat} {t₀ : Transmitter}
    (ht : Transmitter.new (ls.map fun l => (l.geometry e.other).sendFrameSize) format rate most = .ok t₀)
    (as : List Transmission.Move) (buffers : List (List S)) (count wait : Nat) (md : TxMetadata) :
    let x := (Transmission.fresh t₀ ls).run e as
    let y := x.step e (.send buffers count wait md)
    ∃ sent done, x.Level t₀ gs sent ∧
      y.Level t₀ gs (sent ++ t₀.labels md count (UInt16.ofNat sent.length) done) ∧
      match (x.send e buffers count wait md).1 with
      | .ok k => (buffers.length = gs.length ∧ ∀ b ∈ buffers, count ≤ b.length) ∧
          x.Put e t₀ md count buffers (UInt16.ofNat sent.length) done k y
      | .error _ => ¬(buffers.length = gs.length ∧ ∀ b ∈ buffers, count ≤ b.length) ∧ y = x := by
  intro x y
  obtain ⟨hfresh, hpos, hroom⟩ := Transmission.Level.fresh hls ht
  obtain ⟨sent, hx⟩ := hfresh.run hpos hroom as
  rw [List.nil_append] at hx
  by_cases hok : buffers.length = gs.length ∧ ∀ b ∈ buffers, count ≤ b.length
  · obtain ⟨done, k, he, hput, hy⟩ := hx.send wait md hpos hroom hok.1 hok.2
    exact ⟨sent, done, hx, hy, by rw [he]; exact ⟨hok, hput⟩⟩
  · obtain ⟨⟨err, he⟩, hy⟩ := hx.misuse wait md hok
    have hy : y = x := hy
    refine ⟨sent, [], hx, ?_, by rw [he]; exact ⟨hok, hy⟩⟩
    rw [hy, Transmitter.labels, List.append_nil]
    exact hx

/-- Somebody holds a frame of the second link, and a packet of the first one was taken and let go. Of
seven samples three go out then, in two packets. The third piece has a frame on the first link and
none on the second. -/
theorem send_in_step_short :
    let gs : List Geometry := [{ sendFrameSize := 26, sendFrames := 3 }, { sendFrameSize := 31, sendFrames := 4 }]
    let b : List (Iq Int16) := [⟨1, 2⟩, ⟨3, 4⟩, ⟨5, 6⟩, ⟨7, 8⟩, ⟨9, 10⟩, ⟨11, 12⟩, ⟨13, 14⟩]
    let md : TxMetadata := { endOfBurst := true, eov := [3] }
    let t : Transmitter := { sequences := [0, 0], format := .sc16, rate := 1, packetSamples := 2 }
    let as : List Transmission.Move := [.use 1 (.acquire .host "kept"),
      .send [b, b] 2 0 { startOfBurst := true }, .use 0 (.receive .device "got"), .use 0 (.release "got")]
    ∃ ls, gs.mapM Link.new = .ok ls ∧
      Transmitter.new (ls.map fun l => (l.geometry .host).sendFrameSize) .sc16 1 8 = .ok t ∧
      let x := (Transmission.fresh t ls).run .device as
      let y := x.step .device (.send [b, b.reverse] 7 0 md)
      (x.send .device [b, b.reverse] 7 0 md).1 = .ok 3 ∧
      ∃ sent done, x.Level t gs sent ∧ y.Level t gs (sent ++ t.labels md 7 (UInt16.ofNat sent.length) done) ∧
        x.Put .device t md 7 [b, b.reverse] (UInt16.ofNat sent.length) done 3 y := by
  intro gs b md t as
  obtain ⟨ls, hls, ht, hk⟩ : ∃ ls, gs.mapM Link.new = .ok ls ∧
      Transmitter.new (ls.map fun l => (l.geometry .host).sendFrameSize) .sc16 1 8 = .ok t ∧
      (((Transmission.fresh t ls).run .device as).send .device [b, b.reverse] 7 0 md).1.toOption = some 3 := by
    refine ⟨_, rfl, rfl, ?_⟩
    decide +kernel
  obtain ⟨sent, done, hx, hy, hput⟩ := send_in_step hls .device ht as [b, b.reverse] 7 0 md
  refine ⟨ls, hls, ht, ?_⟩
  cases he : (((Transmission.fresh t ls).run .device as).send .device [b, b.reverse] 7 0 md).1 with
  | error err =>
    rw [he] at hk
    cases hk
  | ok k =>
    rw [he] at hk hput
    cases hk
    exact ⟨he, sent, done, hx, hy, hput.2⟩

end RadioStream
