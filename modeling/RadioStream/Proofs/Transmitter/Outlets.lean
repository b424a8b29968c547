import RadioStream.Proofs.Lane
import RadioStream.Proofs.Lists
import RadioStream.Proofs.Packet
import RadioStream.Proofs.Transmitter.Pieces
import RadioStream.Transmitter.Basic
/-!
# The channels of a transmission

A send call asks every channel for a frame before it gives up any. So either all channels
send a packet of a piece, or none does and the frames that were had go home empty.

`Traffic` says what that does to one channel, and `Outlets` how the channels are told from
the surroundings, one way for links and another for surroundings that keep a record. What
a call does is said once for all of them: `send_goes` follows it channel by channel, up to
the first piece that finds no frame.
-/

namespace RadioStream

variable {α σ S : Type}

/-- What a channel comes to when it is asked for a frame, which it may have or not, and when a
frame is given up. -/
structure Traffic (α : Type) where
  Asked : α → Option Frame → α → Prop
  Given : α → Frame → α → Prop

/-- A way to tell from the surroundings how each channel stands. -/
structure Outlets (terminals : Nat → Terminal σ) (R : Traffic α) where
  Tells : List α → σ → Prop
  acquire : ∀ {before after : List α} {a : α} {wait : Nat} {s s' : σ} {f : Option Frame},
    Tells (before ++ a :: after) s → (terminals before.length).acquire wait s = (f, s') →
    ∃ a', R.Asked a f a' ∧ Tells (before ++ a' :: after) s'
  submit : ∀ {before after : List α} {a : α} {s : σ} (f : Frame), Tells (before ++ a :: after) s →
    ∃ a', R.Given a f a' ∧ Tells (before ++ a' :: after) ((terminals before.length).submit f s)

/-- A channel: how it stands, the number of its next packet and the samples for it. -/
structure Outlet (α S : Type) where
  account : α
  sequence : UInt16
  samples : List S

namespace Outlet

/-- The channel when it stands otherwise. -/
def withAccount (x : Outlet α S) (a : α) : Outlet α S := { x with account := a }

/-- Channels side by side. -/
def row : List α → List UInt16 → List (List S) → List (Outlet α S)
  | a :: as, q :: qs, b :: bs => ⟨a, q, b⟩ :: row as qs bs
  | _, _, _ => []

theorem map_row {as : List α} {qs : List UInt16} {bs : List (List S)} (hq : qs.length = as.length)
    (hb : bs.length = as.length) :
    (row as qs bs).map (·.account) = as ∧ (row as qs bs).map (·.sequence) = qs ∧
      (row as qs bs).map (·.samples) = bs := by
  induction as generalizing qs bs with
  | nil =>
    rw [List.eq_nil_of_length_eq_zero hq, List.eq_nil_of_length_eq_zero hb]
    exact ⟨rfl, rfl, rfl⟩
  | cons a as ih =>
    obtain ⟨q, qs, rfl⟩ := List.exists_cons_of_length_eq_add_one hq
    obtain ⟨b, bs, rfl⟩ := List.exists_cons_of_length_eq_add_one hb
    obtain ⟨ha, hqs, hbs⟩ := ih (Nat.succ.inj hq) (Nat.succ.inj hb)
    simp only [row, List.map_cons, ha, hqs, hbs, and_self]

theorem getElem?_row {as : List α} {qs : List UInt16} {bs : List (List S)} {i : Nat} {a : α} {q : UInt16} {b : List S}
    (ha : as[i]? = some a) (hq : qs[i]? = some q) (hb : bs[i]? = some b) : (row as qs bs)[i]? = some ⟨a, q, b⟩ := by
  induction as generalizing qs bs i with
  | nil => cases ha
  | cons a₀ as ih =>
    rcases qs with _ | ⟨q₀, qs⟩
    · cases hq
    · rcases bs with _ | ⟨b₀, bs⟩
      · cases hb
      · cases i with
        | zero =>
          cases ha
          cases hq
          cases hb
          rfl
        | succ i => exact ih ha hq hb

/-- How the packet of a piece is written, by its number and the samples of the channel. -/
abbrev Writer (S : Type) : Type := UInt16 → Piece → List S → Bytes → Written

variable (R : Traffic α) (w : Writer S)

/-- A packet goes out on a channel, which counts it if the frame has room for it. -/
inductive Sends (p : Piece) (x : Outlet α S) : Outlet α S → Prop where
  | intro {f : Frame} {a a' : α} : R.Asked x.account (some f) a →
      R.Given a ((w x.sequence p x.samples f.window).release f) a' →
      Sends p x ⟨a', if (w x.sequence p x.samples f.window).outcome.isOk then x.sequence + 1 else x.sequence, x.samples⟩

/-- The packets of some pieces go out one after the other. -/
inductive SendsAll : List Piece → Outlet α S → Outlet α S → Prop where
  | nil {x : Outlet α S} : SendsAll [] x x
  | cons {p : Piece} {ps : List Piece} {x y z : Outlet α S} : Sends R w p x y → SendsAll ps y z → SendsAll (p :: ps) x z

/-- A piece finds no frame on one of the channels. Those before it give the frame back that
they gave for it, and those behind it are not asked. -/
inductive Missed : List (Outlet α S) → List (Outlet α S) → Prop where
  | refused {x : Outlet α S} {a : α} {xs : List (Outlet α S)} : R.Asked x.account none a →
      Missed (x :: xs) (x.withAccount a :: xs)
  | back {x : Outlet α S} {f : Frame} {a a' : α} {xs ys : List (Outlet α S)} : R.Asked x.account (some f) a →
      Missed xs ys → R.Given a (f.withUsed 0) a' → Missed (x :: xs) (x.withAccount a' :: ys)

/-- Each channel gives a frame. -/
inductive TakesAll : List (Outlet α S) → List Frame → List α → Prop where
  | nil : TakesAll [] [] []
  | cons {x : Outlet α S} {f : Frame} {a : α} {xs : List (Outlet α S)} {fs : List Frame} {as : List α} :
      R.Asked x.account (some f) a → TakesAll xs fs as → TakesAll (x :: xs) (f :: fs) (a :: as)

/-- What a call does on its channels: all pieces go out, or only those before one that finds
no frame. -/
inductive Goes (count : Nat) (ps : List Piece) (xs : List (Outlet α S)) :
    List Piece → Nat → List (Outlet α S) → Prop where
  | whole {ys : List (Outlet α S)} : List.Forall₂ (SendsAll R w ps) xs ys → Goes count ps xs ps count ys
  | short {done rest : List Piece} {p : Piece} {zs ys : List (Outlet α S)} : ps = done ++ p :: rest →
      List.Forall₂ (SendsAll R w done) xs zs → Missed R zs ys → Goes count ps xs done p.start ys

variable {R w}

theorem samples_of_sends {p : Piece} {xs ys : List (Outlet α S)} (h : List.Forall₂ (Sends R w p) xs ys) :
    ys.map (·.samples) = xs.map (·.samples) := by
  induction h with
  | nil => rfl
  | cons hx _ ih =>
    cases hx
    rw [List.map_cons, List.map_cons, ih]

/-- What taking a frame and giving up another with the same slot and size keeps of a channel is
kept when packets go out. -/
theorem SendsAll.keeps {P : α → Prop} (hw : ∀ q p b win, (w q p b win).frame.length = win.length)
    (hP : ∀ {a f a₁ g a₂}, P a → R.Asked a (some f) a₁ → g.slot = f.slot → g.window.length = f.window.length →
      R.Given a₁ g a₂ → P a₂)
    {ps : List Piece} {x y : Outlet α S} (h : SendsAll R w ps x y) (hx : P x.account) : P y.account := by
  induction h with
  | nil => exact hx
  | cons hs _ ih =>
    rcases hs with ⟨ht, hg⟩
    refine ih (hP hx ht ?_ ?_ hg)
    · rw [Written.slot_release]
    · rw [Written.window_release, hw]

/-- A channel of a piece that finds no frame refuses one, is not asked, or gets its frame back. -/
theorem Missed.each {xs ys : List (Outlet α S)} (h : Missed R xs ys) :
    List.Forall₂ (fun x y => R.Asked x.account none y.account ∧ y = x.withAccount y.account ∨ y = x ∨
      ∃ f a, R.Asked x.account (some f) a ∧ R.Given a (f.withUsed 0) y.account ∧ y = x.withAccount y.account)
      xs ys := by
  induction h with
  | refused hr => exact .cons (.inl ⟨hr, rfl⟩) (List.forall₂_same.2 fun _ _ => .inr (.inl rfl))
  | back ht _ hg ih => exact .cons (.inr (.inr ⟨_, _, ht, hg, rfl⟩)) ih

theorem Missed.exists_refused {xs ys : List (Outlet α S)} (h : Missed R xs ys) :
    ∃ x ∈ xs, ∃ y ∈ ys, R.Asked x.account none y.account := by
  induction h with
  | refused hr => exact ⟨_, List.mem_cons_self, _, List.mem_cons_self, hr⟩
  | back _ _ _ ih =>
    obtain ⟨x, hx, y, hy, hr⟩ := ih
    exact ⟨x, List.mem_cons_of_mem _ hx, y, List.mem_cons_of_mem _ hy, hr⟩

theorem Missed.sequences_eq {xs ys : List (Outlet α S)} (h : Missed R xs ys) :
    ys.map (·.sequence) = xs.map (·.sequence) := by
  induction h with
  | refused _ => rfl
  | back _ _ _ ih => rw [List.map_cons, List.map_cons, ih]; rfl

/-- What was done of the pieces reaches up to the samples that the call reports. -/
theorem Goes.tiles {most count : Nat} {ps done : List Piece} {k : Nat} {xs ys : List (Outlet α S)}
    (h : Goes R w count ps xs done k ys) (hps : Piece.Tiles most 0 ps count) :
    Piece.Tiles most 0 done k ∧ k ≤ count ∧ done <+: ps := by
  cases h with
  | whole _ => exact ⟨hps, Nat.le_refl _, List.prefix_refl _⟩
  | short he _ _ =>
    rw [he] at hps ⊢
    obtain ⟨hdone, hle, hstop⟩ := hps.before
    exact ⟨hdone, Nat.le_trans hle hstop, List.prefix_append _ _⟩

end Outlet

namespace Transmitter

open Outlet

/-- The room that the frames of a transmitter have. -/
def room (t : Transmitter) : Nat := Header.size + t.packetSamples * t.format.sampleBytes

theorem of_new {sizes : List Nat} {format : WireFormat} {rate : Float} {n : Nat} {t : Transmitter}
    (h : Transmitter.new sizes format rate n = .ok t) :
    0 < t.packetSamples ∧ t.format = format ∧ t.rate = rate ∧ t.sequences = sizes.map (fun _ => 0) ∧
      ∀ s ∈ sizes, t.room ≤ s := by
  unfold Transmitter.new at h
  cases hm : sizes.min? with
  | none => rw [hm] at h; cases h
  | some frame =>
    rw [hm] at h
    dsimp only at h
    split at h
    · cases h
    · next hz =>
      cases h
      refine ⟨Nat.pos_of_ne_zero hz, rfl, rfl, rfl, fun s hs => ?_⟩
      -- a packet with a sample has more bytes than its header
      have hle := (List.min?_eq_some_iff.1 hm).2 s hs
      have hfull : min n ((frame - Header.size) / format.sampleBytes) * format.sampleBytes ≤ frame - Header.size :=
        (Nat.mul_le_mul_right _ (Nat.min_le_right _ _)).trans (Nat.div_mul_le_self _ _)
      have hpos : 0 < min n ((frame - Header.size) / format.sampleBytes) * format.sampleBytes :=
        Nat.mul_pos (Nat.pos_of_ne_zero hz) format.sampleBytes_pos
      rw [room]
      dsimp only
      omega

/-! ## The packets of pieces -/

/-- The packet of a piece, with the number `q`. -/
def packetOf (t : Transmitter) (md : TxMetadata) (count : Nat) (q : UInt16) (p : Piece) : Header :=
  { t.header md (p.start == 0) (p.stop == count) p.endsVector with sequence := q }

theorem kind_packetOf (t : Transmitter) (md : TxMetadata) (count : Nat) (q : UInt16) (p : Piece) :
    (t.packetOf md count q p).kind = .data := by
  unfold packetOf header Header.stamped
  split <;> rfl

/-- The flags of a packet. -/
theorem flags_packetOf (t : Transmitter) (md : TxMetadata) (count : Nat) (q : UInt16) (p : Piece) :
    let h := t.packetOf md count q p
    h.startOfBurst = (p.start == 0 && md.startOfBurst) ∧ h.endOfBurst = (p.stop == count && md.endOfBurst) ∧
      h.endOfVector = p.endsVector ∧ h.hasTime = (p.start == 0 && md.hasTime) := by
  unfold packetOf header Header.stamped
  cases hc : (p.start == 0 && md.hasTime) <;> simp

theorem timestamp_packetOf {t : Transmitter} {md : TxMetadata} {count : Nat} {q : UInt16} {p : Piece} (hp : p.start = 0)
    (ht : md.hasTime = true) : (t.packetOf md count q p).timestamp = md.time.startTick t.rate := by
  simp [packetOf, header, Header.stamped, hp, ht]

section Packets

variable [HostSample S]

/-- The frame of a piece on a channel. -/
def frameOf (t : Transmitter) (md : TxMetadata) (count : Nat) (q : UInt16) (p : Piece) (b : List S) : Bytes :=
  DataPacket.bytes t.format (t.packetOf md count q p)
    (((b.drop p.start).take (p.stop - p.start)).map HostSample.toRaw)

/-- The frames of pieces on a channel, numbered from `q` on. -/
def framesOf (t : Transmitter) (md : TxMetadata) (count : Nat) (b : List S) : UInt16 → List Piece → List Bytes
  | _, [] => []
  | q, p :: ps => t.frameOf md count q p b :: framesOf t md count b (q + 1) ps

/-- The frames do not depend on the numbers that the transmitter has come to. -/
theorem framesOf_sequences (t : Transmitter) (qs : List UInt16) (md : TxMetadata) (count : Nat) (b : List S)
    (q : UInt16) (ps : List Piece) :
    framesOf { t with sequences := qs } md count b q ps = t.framesOf md count b q ps := by
  induction ps generalizing q with
  | nil => rfl
  | cons p ps ih => rw [framesOf, framesOf, ih]; rfl

theorem length_framesOf (t : Transmitter) (md : TxMetadata) (count : Nat) (b : List S) (q : UInt16) (ps : List Piece) :
    (t.framesOf md count b q ps).length = ps.length := by
  induction ps generalizing q with
  | nil => rfl
  | cons p ps ih => rw [framesOf, List.length_cons, ih, List.length_cons]

/-- Behind the headers are the samples that the pieces cover. -/
theorem payloads_framesOf {t : Transmitter} {md : TxMetadata} {count : Nat} {b : List S} {q : UInt16} {ps : List Piece}
    {most a c : Nat} (h : Piece.Tiles most a ps c) (hc : c ≤ b.length) :
    ((t.framesOf md count b q ps).map (·.drop Header.size)).flatten =
      (((b.drop a).take (c - a)).map HostSample.toRaw).flatMap t.format.encode := by
  induction ps generalizing a q with
  | nil =>
    obtain rfl : a = c := h
    simp [framesOf]
  | cons p ps ih =>
    obtain ⟨rfl, hle, -, hr⟩ := h
    have hstop := hr.le
    have hbody : (t.frameOf md count q p b).drop Header.size =
        (((b.drop p.start).take (p.stop - p.start)).map HostSample.toRaw).flatMap t.format.encode := by
      rw [frameOf, DataPacket.bytes]
      exact List.drop_left' (Header.length_bytes _)
    rw [framesOf, List.map_cons, List.flatten_cons, ih hr, hbody, ← List.flatMap_append, ← List.map_append]
    congr 2
    rw [show c - p.start = (p.stop - p.start) + (c - p.stop) by omega, List.take_add, List.drop_drop,
      show p.start + (p.stop - p.start) = p.stop by omega]

/-- How the packet of a piece is written. -/
def writer (t : Transmitter) (md : TxMetadata) (count : Nat) : Writer S := fun q p b =>
  (t.packetOf md count q p).encodeSamples t.format ((b.drop p.start).take (p.stop - p.start))

/-- A frame with room for the samples of a piece takes the packet of it. -/
theorem writer_release (t : Transmitter) (md : TxMetadata) (count : Nat) (q : UInt16) {p : Piece} (b : List S)
    {f : Frame} (hfit : Header.size + (p.stop - p.start) * t.format.sampleBytes ≤ f.window.length) :
    (t.writer md count q p b f.window).outcome.isOk = true ∧
      ((t.writer md count q p b f.window).release f).payload = t.frameOf md count q p b ∧
      ((t.writer md count q p b f.window).release f).used ≠ 0 := by
  have hlen : ((b.drop p.start).take (p.stop - p.start)).length ≤ p.stop - p.start := List.length_take_le _ _
  have hle := Nat.add_le_add_left (Nat.mul_le_mul_right t.format.sampleBytes hlen) Header.size
  obtain ⟨win, he, hwin, htake⟩ := (t.packetOf md count q p).encodeSamples_spec t.format (hle.trans hfit)
  have he : t.writer md count q p b f.window = _ := he
  rw [he, Written.release_of_ok rfl (by rw [hwin]; exact hle.trans hfit)]
  refine ⟨rfl, htake, ?_⟩
  have hsize : 0 < Header.size := by decide
  dsimp only
  omega

theorem length_writer (t : Transmitter) (md : TxMetadata) (count : Nat) (q : UInt16) (p : Piece) (b : List S)
    (win : Bytes) : (t.writer md count q p b win).frame.length = win.length :=
  Header.length_encodeSamples _ _ _ _

end Packets

/-! ## One piece -/

section Calls

variable {terminals : Nat → Terminal σ} {R : Traffic α} (o : Outlets terminals R) (wait : Nat)

theorem acquireAll_goes (before : List α) (xs : List (Outlet α S)) {s : σ}
    (h : o.Tells (before ++ xs.map (·.account)) s) :
    (∃ ys s', acquireAll terminals wait before.length xs.length s = (none, s') ∧ Missed R xs ys ∧
      o.Tells (before ++ ys.map (·.account)) s') ∨
    ∃ fs as s', acquireAll terminals wait before.length xs.length s = (some fs, s') ∧ TakesAll R xs fs as ∧
      o.Tells (before ++ as) s' := by
  induction xs generalizing before s with
  | nil => exact .inr ⟨[], [], s, rfl, .nil, h⟩
  | cons x xs ih =>
    rw [List.map_cons] at h
    rw [List.length_cons, acquireAll]
    rcases hacq : (terminals before.length).acquire wait s with ⟨_ | f, s₁⟩
    · obtain ⟨a, hr, h₁⟩ := o.acquire h hacq
      exact .inl ⟨x.withAccount a :: xs, s₁, rfl, .refused hr, h₁⟩
    · obtain ⟨a, ht, h₁⟩ := o.acquire h hacq
      rw [List.append_cons] at h₁
      have hrest := ih (before ++ [a]) h₁
      rw [List.length_append, List.length_singleton] at hrest
      dsimp only
      rcases hrest with ⟨ys, s₂, he, hm, h₂⟩ | ⟨fs, as, s₂, he, hts, h₂⟩
      · -- the frame that was had goes home empty
        rw [← List.append_cons] at h₂
        obtain ⟨a', hg, h₃⟩ := o.submit (f.withUsed 0) h₂
        rw [he]
        exact .inl ⟨x.withAccount a' :: ys, _, rfl, .back ht hm hg, h₃⟩
      · rw [he]
        refine .inr ⟨f :: fs, a :: as, s₂, rfl, .cons ht hts, ?_⟩
        rwa [List.append_cons]

variable [HostSample S] {t : Transmitter} (md : TxMetadata) (count : Nat) {xs : List (Outlet α S)} {s : σ} {p : Piece}

theorem sendAll_goes (before : List α) {fs : List Frame} {as : List α} (ht : TakesAll R xs fs as)
    (h : o.Tells (before ++ as) s) :
    ∃ ys s', sendAll terminals t.format (t.header md (p.start == 0) (p.stop == count) p.endsVector) before.length
          (xs.map (·.sequence)) (xs.map fun x => (x.samples.drop p.start).take (p.stop - p.start)) fs s =
        (ys.map (·.sequence), s') ∧
      List.Forall₂ (Sends R (t.writer md count) p) xs ys ∧ o.Tells (before ++ ys.map (·.account)) s' := by
  induction ht generalizing before s with
  | nil => exact ⟨[], s, rfl, .nil, h⟩
  | @cons x f a xs fs as hx _ ih =>
    obtain ⟨a', hg, h₁⟩ := o.submit ((t.writer md count x.sequence p x.samples f.window).release f) h
    rw [List.append_cons] at h₁
    obtain ⟨ys, s', he, hys, h₂⟩ := ih (before ++ [a']) h₁
    rw [List.length_append, List.length_singleton] at he
    rw [← List.append_cons] at h₂
    refine ⟨_ :: ys, s', ?_, .cons (.intro hx hg) hys, h₂⟩
    rw [List.map_cons, List.map_cons, sendAll]
    dsimp only
    rw [Terminal.sendIn_eq]
    exact congrArg (fun r : List UInt16 × σ => (_ :: r.1, r.2)) he

/-- A piece goes out on every channel or on none. -/
theorem sendPiece_goes (hq : t.sequences = xs.map (·.sequence)) (h : o.Tells (xs.map (·.account)) s) :
    ∃ ys s', o.Tells (ys.map (·.account)) s' ∧
      (t.sendPiece terminals wait (xs.map (·.samples))
            (t.header md (p.start == 0) (p.stop == count) p.endsVector) p s =
          (false, t, s') ∧ Missed R xs ys ∨
        t.sendPiece terminals wait (xs.map (·.samples))
            (t.header md (p.start == 0) (p.stop == count) p.endsVector) p s =
          (true, { t with sequences := ys.map (·.sequence) }, s') ∧
            List.Forall₂ (Sends R (t.writer md count) p) xs ys) := by
  unfold sendPiece
  rw [hq, List.length_map]
  rcases acquireAll_goes o wait [] xs h with ⟨ys, s', he, hm, h'⟩ | ⟨fs, as, s₁, he, hts, h₁⟩
  · rw [List.length_nil] at he
    rw [he]
    exact ⟨ys, s', h', .inl ⟨rfl, hm⟩⟩
  · obtain ⟨ys, s', he', hys, h'⟩ := sendAll_goes o md count (t := t) (p := p) [] hts h₁
    rw [List.length_nil] at he he'
    rw [he]
    dsimp only
    rw [List.map_map, show (fun b : List S => (b.drop p.start).take (p.stop - p.start)) ∘ (·.samples) =
      fun x : Outlet α S => (x.samples.drop p.start).take (p.stop - p.start) from rfl, he']
    exact ⟨ys, s', h', .inr ⟨rfl, hys⟩⟩

/-! ## A call -/

theorem sendPieces_goes (ps : List Piece) (hq : t.sequences = xs.map (·.sequence))
    (h : o.Tells (xs.map (·.account)) s) :
    ∃ done k ys s', sendPieces terminals wait count md (xs.map (·.samples)) ps t s =
        (k, { t with sequences := ys.map (·.sequence) }, s') ∧
      o.Tells (ys.map (·.account)) s' ∧ Goes R (t.writer md count) count ps xs done k ys := by
  induction ps generalizing t xs s with
  | nil =>
    refine ⟨[], count, xs, s, ?_, h, .whole (List.forall₂_same.2 fun _ _ => .nil)⟩
    rw [sendPieces, ← hq]
  | cons p ps ih =>
    obtain ⟨ys, s₁, h₁, ⟨he, hm⟩ | ⟨he, hys⟩⟩ := sendPiece_goes o wait md count (p := p) hq h
    · refine ⟨[], p.start, ys, s₁, ?_, h₁, .short rfl (List.forall₂_same.2 fun _ _ => .nil) hm⟩
      rw [sendPieces, he, hm.sequences_eq, ← hq]
    · obtain ⟨done, k, zs, s', he', h', hgo⟩ := ih (t := { t with sequences := ys.map (·.sequence) }) rfl h₁
      have hgo : Goes R (t.writer md count) count ps ys done k zs := hgo
      refine ⟨p :: done, k, zs, s', ?_, h', ?_⟩
      · rw [sendPieces, he]
        dsimp only
        rw [← samples_of_sends hys, he']
      · cases hgo with
        | whole hzs => exact .whole (forall₂_comp hys hzs .cons)
        | short hps hzs hm => exact .short (by rw [hps, List.cons_append]) (forall₂_comp hys hzs .cons) hm

/-- The pieces of a call. Without samples there is an empty one if a burst starts or ends. -/
def pieces (t : Transmitter) (md : TxMetadata) (count : Nat) : List Piece :=
  if count = 0 then (if md.startOfBurst || md.endOfBurst then [⟨0, 0, false⟩] else [])
  else Piece.cut t.packetSamples md.eov count

theorem tiles_pieces (t : Transmitter) (md : TxMetadata) (count : Nat) (hpos : 0 < t.packetSamples) :
    Piece.Tiles t.packetSamples 0 (t.pieces md count) count := by
  unfold pieces
  by_cases hz : count = 0
  · subst hz
    rw [if_pos rfl]
    split
    · exact ⟨rfl, Nat.le_refl 0, Nat.zero_le _, rfl⟩
    · rfl
  · rw [if_neg hz]
    exact Piece.tiles_cut hpos md.eov count

/-- The frames have room for every piece of a call. -/
theorem room_of_mem_pieces {t : Transmitter} (hpos : 0 < t.packetSamples) {md : TxMetadata} {count : Nat} {p : Piece}
    (hp : p ∈ t.pieces md count) : Header.size + (p.stop - p.start) * t.format.sampleBytes ≤ t.room :=
  Nat.add_le_add_left (Nat.mul_le_mul_right _ ((t.tiles_pieces md count hpos).length_le hp)) _

section Arguments

variable (terminals : Nat → Terminal σ) (wait : Nat) (md : TxMetadata) {t : Transmitter} {count : Nat}
  {buffers : List (List S)}

/-- A call that the arguments allow sends its pieces. -/
theorem send_eq (s : σ) (hl : buffers.length = t.sequences.length) (hlong : ∀ b ∈ buffers, count ≤ b.length) :
    t.send terminals buffers count wait md s =
      Prod.map Except.ok id (sendPieces terminals wait count md buffers (t.pieces md count) t s) := by
  unfold send pieces
  rw [if_neg (by rw [hl]; exact fun h => h rfl), find?_short.2 hlong]
  dsimp only
  by_cases hz : count = 0
  · subst hz
    rw [if_pos rfl, if_pos rfl]
    by_cases hm : (md.startOfBurst || md.endOfBurst) = true
    · -- whether the empty packet goes out or not, no samples do
      rw [if_pos hm, if_pos hm, sendPieces]
      dsimp only
      rw [show ((0 : Nat) == 0) = true from rfl]
      rcases t.sendPiece terminals wait buffers (t.header md true true false) ⟨0, 0, false⟩ s with ⟨_ | _, t', s'⟩ <;>
        rfl
    · rw [if_neg hm, if_neg hm]
      rfl
  · rw [if_neg hz, if_neg hz]
    rfl

/-- A call that the arguments forbid sends nothing. -/
theorem send_misuse (s : σ) (h : ¬(buffers.length = t.sequences.length ∧ ∀ b ∈ buffers, count ≤ b.length)) :
    ∃ err, t.send terminals buffers count wait md s = (.error err, t, s) := by
  unfold send
  by_cases hl : buffers.length = t.sequences.length
  · rw [if_neg (by rw [hl]; exact fun h => h rfl)]
    cases hf : buffers.find? (·.length < count) with
    | some b => exact ⟨_, rfl⟩
    | none => exact absurd ⟨hl, find?_short.1 hf⟩ h
  · rw [if_pos hl]
    exact ⟨_, rfl⟩

end Arguments

/-- A transmission of one piece is whole if every link has an idle frame. -/
theorem send_single {wait : Nat} {md : TxMetadata} {count : Nat} {t : Transmitter} {s : σ} {buffers : List (List S)}
    {p : Piece} (hcount : 0 < count) (hl : buffers.length = t.sequences.length)
    (hlong : ∀ b ∈ buffers, count ≤ b.length) (hcut : Piece.cut t.packetSamples md.eov count = [p])
    (hidle : (acquireAll terminals wait 0 t.sequences.length s).1.isSome) :
    (t.send terminals buffers count wait md s).1 = .ok count := by
  rw [send_eq terminals wait md s hl hlong, pieces, if_neg (Nat.ne_of_gt hcount), hcut]
  unfold sendPieces sendPiece
  rcases hacq : acquireAll terminals wait 0 t.sequences.length s with ⟨_ | frames, s'⟩
  · rw [hacq] at hidle
    cases hidle
  · rfl

/-- What a call does that the arguments allow. -/
theorem send_goes (as : List α) (buffers : List (List S)) (hq : t.sequences.length = as.length)
    (hl : buffers.length = as.length) (hlong : ∀ b ∈ buffers, count ≤ b.length) (h : o.Tells as s) :
    ∃ done k ys s', t.send terminals buffers count wait md s =
        (.ok k, { t with sequences := ys.map (·.sequence) }, s') ∧
      o.Tells (ys.map (·.account)) s' ∧
      Goes R (t.writer md count) count (t.pieces md count) (row as t.sequences buffers) done k ys := by
  obtain ⟨ha, hqs, hb⟩ := map_row hq hl
  obtain ⟨done, k, ys, s', he, h', hgo⟩ := sendPieces_goes o wait md count (t.pieces md count) hqs.symm (ha.symm ▸ h)
  refine ⟨done, k, ys, s', ?_, h', hgo⟩
  rw [hb] at he
  rw [send_eq terminals wait md s (hl.trans hq.symm) hlong, he]
  rfl

end Calls

end Transmitter

end RadioStream
