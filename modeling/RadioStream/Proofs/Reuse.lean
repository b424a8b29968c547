import RadioStream.Proofs.Link
import RadioStream.Proofs.Lists
import RadioStream.Proofs.Packet
import RadioStream.Receiver.Basic
import RadioStream.Transmitter.Basic
/-!
# Frames that are used again

A frame that comes home keeps what was written into it. Two links are alike if they differ
only in that: idle frames agree in their shape, frames on their way agree in the bytes that
count as well. Whoever sends on links that are alike fares the same on both, and leaves links
that are alike; so what was in a frame before never reaches the other end.

A packet is written blindly if what is sent of the frame does not depend on what was in it
(`Blind`). From that and from what each end does (`Terminal.Respects`), the calls of the host
give the same results (`Unaware`).
-/

namespace RadioStream

/-! ## Queues, element by element -/

/-- Queues of one capacity whose elements are related one by one. -/
structure Queue.Alike {α β : Type} (R : α → β → Prop) (q : Queue α) (q' : Queue β) : Prop where
  capacity : q.capacity = q'.capacity
  items : List.Forall₂ R q.items q'.items

namespace Queue.Alike

variable {α β : Type} {R : α → β → Prop} {q : Queue α} {q' : Queue β}

theorem take (h : Alike R q q') : Option.Rel R q.take.1 q'.take.1 ∧ Alike R q.take.2 q'.take.2 := by
  rcases ht : q.take with ⟨x, r⟩
  rcases ht' : q'.take with ⟨x', r'⟩
  have hi := h.items
  cases x with
  | none =>
    obtain ⟨he, rfl⟩ := take_eq_none ht
    cases x' with
    | none =>
      obtain ⟨-, rfl⟩ := take_eq_none ht'
      exact ⟨.none, h⟩
    | some x' =>
      rw [he, (take_eq_some ht').1] at hi
      cases hi
  | some x =>
    obtain ⟨he, hc⟩ := take_eq_some ht
    cases x' with
    | none =>
      rw [he, (take_eq_none ht').1] at hi
      cases hi
    | some x' =>
      obtain ⟨he', hc'⟩ := take_eq_some ht'
      rw [he, he'] at hi
      cases hi with
      | cons hx hr => exact ⟨.some hx, hc.trans (h.capacity.trans hc'.symm), hr⟩

theorem push? (h : Alike R q q') {x : α} {x' : β} (hx : R x x') :
    Option.Rel (Alike R) (q.push? x) (q'.push? x') := by
  have hl := h.items.length_eq
  cases hp : q.push? x with
  | none =>
    have hfull := push?_eq_none_iff.1 hp
    rw [push?_eq_none_iff.2 (by rw [← hl, ← h.capacity, hfull])]
    exact .none
  | some r =>
    cases hp' : q'.push? x' with
    | none =>
      have hfull := push?_eq_none_iff.1 hp'
      rw [push?_eq_none_iff.2 (by rw [hl, h.capacity, hfull])] at hp
      cases hp
    | some r' =>
      refine .some ⟨?_, ?_⟩
      · rw [capacity_push? hp, capacity_push? hp', h.capacity]
      · rw [items_push? hp, items_push? hp']
        exact List.rel_append h.items (.cons hx .nil)

end Queue.Alike

/-! ## Frames, lanes and links that are alike -/

/-- Frames that may hold different bytes. -/
structure Frame.SameShape (f f' : Frame) : Prop where
  slot : f.slot = f'.slot
  length : f.window.length = f'.window.length
  used : f.used = f'.used

/-- Frames with the same bytes as far as they count. -/
structure Frame.Alike (f f' : Frame) : Prop extends f.SameShape f' where
  payload : f.payload = f'.payload

/-- Pools that differ only in what is left in their frames. -/
structure Pool.Alike (p p' : Pool) : Prop where
  frameSize : p.frameSize = p'.frameSize
  frames : p.frames = p'.frames
  idle : p.idle.Alike Frame.SameShape p'.idle

/-- Lanes on which the same waits. -/
structure Lane.Alike (l l' : Lane) : Prop where
  home : l.home.Alike l'.home
  waiting : l.waiting.Alike Frame.Alike l'.waiting

structure Link.Alike (l l' : Link) : Prop where
  inbound : ∀ e, (l.inbound e).Alike (l'.inbound e)
  closed : l.closed = l'.closed

theorem Pool.Alike.acquire {p p' : Pool} (h : p.Alike p') :
    Option.Rel Frame.SameShape p.acquire.1 p'.acquire.1 ∧ p.acquire.2.Alike p'.acquire.2 :=
  ⟨h.idle.take.1, h.frameSize, h.frames, h.idle.take.2⟩

theorem Pool.Alike.release {p p' : Pool} (h : p.Alike p') {f f' : Frame} (hf : f.SameShape f') :
    (p.release f).Alike (p'.release f') := by
  have hempty : Frame.SameShape { f with used := 0 } { f' with used := 0 } := ⟨hf.slot, hf.length, rfl⟩
  have hpush := h.idle.push? hempty
  refine ⟨h.frameSize, h.frames, ?_⟩
  unfold Pool.release
  cases hp : p.idle.push? { f with used := 0 } <;> cases hp' : p'.idle.push? { f' with used := 0 } <;>
    rw [hp, hp'] at hpush <;> cases hpush
  · exact h.idle
  · assumption

namespace Lane.Alike

variable {l l' : Lane} {f f' : Frame}

theorem acquire (h : l.Alike l') :
    Option.Rel Frame.SameShape l.acquire.1 l'.acquire.1 ∧ l.acquire.2.Alike l'.acquire.2 :=
  ⟨h.home.acquire.1, h.home.acquire.2, h.waiting⟩

theorem recycle (h : l.Alike l') (hf : f.SameShape f') : (l.recycle f).Alike (l'.recycle f') :=
  ⟨h.home.release hf, h.waiting⟩

theorem receive (h : l.Alike l') :
    Option.Rel Frame.Alike l.receive.1 l'.receive.1 ∧ l.receive.2.Alike l'.receive.2 :=
  ⟨h.waiting.take.1, h.home, h.waiting.take.2⟩

theorem submit (h : l.Alike l') (hf : f.Alike f') : (l.submit f).Alike (l'.submit f') := by
  unfold Lane.submit
  by_cases hu : f.used = 0
  · rw [if_pos hu, if_pos (hf.used ▸ hu)]
    exact h.recycle hf.toSameShape
  · rw [if_neg hu, if_neg (hf.used ▸ hu)]
    have hpush := h.waiting.push? hf
    cases hp : l.waiting.push? f <;> cases hp' : l'.waiting.push? f' <;> rw [hp, hp'] at hpush <;> cases hpush
    · exact h.recycle hf.toSameShape
    · next hq => exact ⟨h.home, hq⟩

/-- The same bytes wait. -/
theorem pending_eq (h : l.Alike l') : l.pending = l'.pending := by
  have hp : List.Forall₂ Eq l.pending l'.pending :=
    List.forall₂_map_left_iff.2 (List.forall₂_map_right_iff.2 (h.waiting.items.imp fun _ _ hf => hf.payload))
  rwa [List.forall₂_eq_eq_eq] at hp

end Lane.Alike

namespace Link.Alike

variable {l l' : Link} {e : End}

theorem withInbound (h : l.Alike l') {n n' : Lane} (hn : n.Alike n') :
    (l.withInbound e n).Alike (l'.withInbound e n') := by
  have hh := h.inbound .host
  have hd := h.inbound .device
  refine ⟨fun e' => ?_, ?_⟩
  · cases e <;> cases e' <;> assumption
  · cases e <;> exact h.closed

theorem close (h : l.Alike l') : l.close.Alike l'.close := ⟨h.inbound, rfl⟩

theorem pending (h : l.Alike l') (e : End) : l.pending e = l'.pending e := (h.inbound e).waiting.items.length_eq

theorem available (h : l.Alike l') (e : End) : (l.outbound e).home.available = (l'.outbound e).home.available :=
  (h.inbound e.other).home.idle.items.length_eq

end Link.Alike

/-! ## Ends of links -/

/-- The same result, in surroundings that are related. -/
structure SameResult {α σ : Type} (R : σ → σ → Prop) (x x' : α × σ) : Prop where
  result : x.1 = x'.1
  rest : R x.2 x'.2

/-- An end that does not show how its surroundings differ: on both sides it gives frames of one shape
to fill and frames with the same bytes to read. -/
structure Terminal.Respects {σ : Type} (t : Terminal σ) (R : σ → σ → Prop) : Prop where
  receive : ∀ wait {s s'}, R s s' →
    Option.Rel Frame.Alike (t.receive wait s).1 (t.receive wait s').1 ∧ R (t.receive wait s).2 (t.receive wait s').2
  recycle : ∀ {f f' s s'}, f.SameShape f' → R s s' → R (t.recycle f s) (t.recycle f' s')
  acquire : ∀ wait {s s'}, R s s' →
    Option.Rel Frame.SameShape (t.acquire wait s).1 (t.acquire wait s').1 ∧
      R (t.acquire wait s).2 (t.acquire wait s').2
  submit : ∀ {f f' s s'}, f.Alike f' → R s s' → R (t.submit f s) (t.submit f' s')

namespace Terminal

variable {σ : Type} {R : σ → σ → Prop}

theorem respects_ofEnd (e : End) : (ofEnd e).Respects Link.Alike where
  receive _ _ _ h := ⟨(h.inbound e).receive.1, h.withInbound (h.inbound e).receive.2⟩
  recycle hf h := h.withInbound ((h.inbound e).recycle hf)
  acquire _ _ _ h := ⟨(h.inbound e.other).acquire.1, h.withInbound (h.inbound e.other).acquire.2⟩
  submit hf h := h.withInbound ((h.inbound e.other).submit hf)

theorem Respects.within {t : Terminal σ} (h : t.Respects R) (i : Nat) :
    (within i t).Respects (List.Forall₂ R) where
  receive wait xs ys hxy := by
    simp only [Terminal.within]
    have hi := forall₂_getElem? hxy i
    cases hx : xs[i]? <;> cases hy : ys[i]? <;> rw [hx, hy] at hi <;> cases hi
    · exact ⟨.none, hxy⟩
    · next hR => exact ⟨(h.receive wait hR).1, forall₂_set hxy i (h.receive wait hR).2⟩
  recycle hf hxy := forall₂_modify hxy i fun _ _ => h.recycle hf
  acquire wait xs ys hxy := by
    simp only [Terminal.within]
    have hi := forall₂_getElem? hxy i
    cases hx : xs[i]? <;> cases hy : ys[i]? <;> rw [hx, hy] at hi <;> cases hi
    · exact ⟨.none, hxy⟩
    · next hR => exact ⟨(h.acquire wait hR).1, forall₂_set hxy i (h.acquire wait hR).2⟩
  submit hf hxy := forall₂_modify hxy i fun _ _ => h.submit hf

/-- An end of one of several links. -/
theorem respects_atEnd (e : End) (i : Nat) : (atEnd e i).Respects (List.Forall₂ Link.Alike) :=
  (respects_ofEnd e).within i

end Terminal

/-! ## Packets written blindly -/

/-- What is sent of a frame after a packet was written into it. -/
structure Written.Alike (w w' : Written) : Prop where
  outcome : w.outcome = w'.outcome
  length : w.frame.length = w'.frame.length
  sent : ∀ n, w.outcome = .ok n → w.frame.take n = w'.frame.take n

/-- What was in a frame before makes no difference. -/
def Blind (write : Bytes → Written) : Prop := ∀ w w', w.length = w'.length → (write w).Alike (write w')

namespace Header

theorem encodePacket_blind (h : Header) (payload : Bytes) : Blind (h.encodePacket payload) := by
  intro w w' hl
  unfold encodePacket
  by_cases hfit : w.length < size + payload.length
  · rw [if_pos hfit, if_pos (hl ▸ hfit), hl]
    exact ⟨rfl, hl, fun n hn => by cases hn⟩
  · rw [if_neg hfit, if_neg (hl ▸ hfit)]
    have hp : ({ h with payloadLength := UInt32.ofNat payload.length }.bytes ++ payload).length =
        size + payload.length := by
      rw [List.length_append, length_bytes]
    refine ⟨rfl, ?_, fun n hn => ?_⟩
    · simp only [splice, List.length_append, List.length_drop, List.length_take, hl]
    · cases hn
      simp only [splice, List.take_zero, List.nil_append]
      rw [List.take_left' hp, List.take_left' hp]

theorem encodeSamples_blind {S : Type} [HostSample S] (h : Header) (format : WireFormat) (xs : List S) :
    Blind (h.encodeSamples format xs) := by
  intro w w' hl
  by_cases hsize : w.length < size
  · rw [encodeSamples, encodeSamples, if_pos hsize, if_pos (hl ▸ hsize), hl]
    exact ⟨rfl, hl, fun n hn => by cases hn⟩
  · -- both frames have room for the same samples
    have hfit := fits_take format xs (Nat.le_of_not_lt hsize)
    rw [h.encodeSamples_take format xs w, h.encodeSamples_take format xs w', ← hl]
    generalize xs.take ((w.length - size) / format.sampleBytes) = ys at hfit ⊢
    obtain ⟨v, hv, hlen, hsent⟩ := h.encodeSamples_spec format hfit
    obtain ⟨v', hv', hlen', hsent'⟩ := h.encodeSamples_spec format (hl ▸ hfit)
    rw [hv, hv']
    refine ⟨rfl, hlen.trans (hl.trans hlen'.symm), fun n hn => ?_⟩
    cases hn
    exact hsent.trans hsent'.symm

end Header

namespace Terminal

variable {σ : Type} {R : σ → σ → Prop} {t : Terminal σ} {write : Bytes → Written} {s s' : σ}

/-- Frames in which the same was written go out with the same bytes. -/
theorem Respects.sendIn (h : t.Respects R) (hw : Blind write) {f f' : Frame} (hf : f.SameShape f') (hs : R s s') :
    SameResult R (t.sendIn write f s) (t.sendIn write f' s') := by
  obtain ⟨hout, hlen, hsent⟩ := hw f.window f'.window hf.length
  unfold Terminal.sendIn
  dsimp only
  rw [← hout]
  cases ho : (write f.window).outcome with
  | error e => exact ⟨rfl, h.submit ⟨⟨hf.slot, hlen, rfl⟩, rfl⟩ hs⟩
  | ok n =>
    have hused : min n (write f.window).frame.length = min n (write f'.window).frame.length := by rw [hlen]
    refine ⟨rfl, h.submit ⟨⟨hf.slot, hlen, hused⟩, ?_⟩ hs⟩
    -- what is committed is what was written, and no more than there is room for
    change (write f.window).frame.take (min n (write f.window).frame.length) =
      (write f'.window).frame.take (min n (write f'.window).frame.length)
    rw [← List.take_eq_take_min, ← List.take_eq_take_min]
    exact hsent n ho

theorem Respects.send (h : t.Respects R) (hw : Blind write) (wait : Nat) (hs : R s s') :
    SameResult R (t.send wait write s) (t.send wait write s') := by
  unfold Terminal.send
  match t.acquire wait s, t.acquire wait s', h.acquire wait hs with
  | (none, _), (none, _), ⟨_, hs⟩ => exact ⟨rfl, hs⟩
  | (some _, _), (some _, _), ⟨.some hf, hs⟩ =>
    obtain ⟨hr, hs⟩ := h.sendIn hw hf hs
    exact ⟨congrArg some hr, hs⟩

/-- The other end reads the same bytes. -/
theorem Respects.take (h : t.Respects R) (wait : Nat) (hs : R s s') :
    SameResult R (t.take wait s) (t.take wait s') := by
  unfold Terminal.take
  match t.receive wait s, t.receive wait s', h.receive wait hs with
  | (none, _), (none, _), ⟨_, hs⟩ => exact ⟨rfl, hs⟩
  | (some _, _), (some _, _), ⟨.some hf, hs⟩ =>
    exact ⟨congrArg some hf.payload, h.recycle hf.toSameShape hs⟩

end Terminal

/-! ## Calls of the host -/

section Calls

variable {σ S : Type} [HostSample S] {R : σ → σ → Prop} {terminals : Nat → Terminal σ}

namespace Transmitter

theorem acquireAll_respects (h : ∀ i, (terminals i).Respects R) (wait i n : Nat) {s s' : σ} (hs : R s s') :
    Option.Rel (List.Forall₂ Frame.SameShape) (acquireAll terminals wait i n s).1
        (acquireAll terminals wait i n s').1 ∧
      R (acquireAll terminals wait i n s).2 (acquireAll terminals wait i n s').2 := by
  induction n generalizing i s s' with
  | zero => exact ⟨.some .nil, hs⟩
  | succ n ih =>
    unfold acquireAll
    match (terminals i).acquire wait s, (terminals i).acquire wait s', (h i).acquire wait hs with
    | (none, _), (none, _), ⟨_, hs⟩ => exact ⟨.none, hs⟩
    | (some _, s), (some _, s'), ⟨.some hf, hs⟩ =>
      dsimp only
      match acquireAll terminals wait (i + 1) n s, acquireAll terminals wait (i + 1) n s', ih (i + 1) hs with
      | (some _, _), (some _, _), ⟨.some hfs, hs⟩ => exact ⟨.some (.cons hf hfs), hs⟩
      | (none, _), (none, _), ⟨_, hs⟩ =>
        -- the frame goes home empty, whatever is in it
        exact ⟨.none, (h i).submit ⟨⟨hf.slot, hf.length, rfl⟩, rfl⟩ hs⟩

theorem sendAll_respects (h : ∀ i, (terminals i).Respects R) (format : WireFormat) (hd : Header) (i : Nat)
    (qs : List UInt16) (bs : List (List S)) {fs fs' : List Frame} (hf : List.Forall₂ Frame.SameShape fs fs') {s s' : σ}
    (hs : R s s') :
    SameResult R (sendAll terminals format hd i qs bs fs s) (sendAll terminals format hd i qs bs fs' s') := by
  induction hf generalizing i qs bs s s' with
  | nil => cases qs <;> cases bs <;> exact ⟨rfl, hs⟩
  | cons hf _ ih =>
    cases qs with
    | nil => exact ⟨rfl, hs⟩
    | cons q qs =>
      cases bs with
      | nil => exact ⟨rfl, hs⟩
      | cons b bs =>
        obtain ⟨hr, hs⟩ := (h i).sendIn (Header.encodeSamples_blind { hd with sequence := q } format b) hf hs
        obtain ⟨hq, hs⟩ := ih (i + 1) qs bs hs
        refine ⟨?_, hs⟩
        simp only [sendAll, hr, hq]

theorem sendPiece_respects (h : ∀ i, (terminals i).Respects R) (wait : Nat) (t : Transmitter) (buffers : List (List S))
    (hd : Header) (p : Piece) {s s' : σ} (hs : R s s') :
    SameResult (SameResult R) (t.sendPiece terminals wait buffers hd p s)
      (t.sendPiece terminals wait buffers hd p s') := by
  unfold sendPiece
  match acquireAll terminals wait 0 t.sequences.length s, acquireAll terminals wait 0 t.sequences.length s',
    acquireAll_respects h wait 0 t.sequences.length hs with
  | (none, _), (none, _), ⟨_, hs⟩ => exact ⟨rfl, rfl, hs⟩
  | (some _, _), (some _, _), ⟨.some hf, hs⟩ =>
    obtain ⟨hq, hs⟩ := sendAll_respects h t.format hd 0 t.sequences
      (buffers.map fun b => (b.drop p.start).take (p.stop - p.start)) hf hs
    exact ⟨rfl, by simp only [hq], hs⟩

theorem sendPieces_respects (h : ∀ i, (terminals i).Respects R) (wait count : Nat) (md : TxMetadata)
    (buffers : List (List S)) (ps : List Piece) (t : Transmitter) {s s' : σ} (hs : R s s') :
    SameResult (SameResult R) (sendPieces terminals wait count md buffers ps t s)
      (sendPieces terminals wait count md buffers ps t s') := by
  induction ps generalizing t s s' with
  | nil => exact ⟨rfl, rfl, hs⟩
  | cons p ps ih =>
    unfold sendPieces
    dsimp only
    generalize t.header md (p.start == 0) (p.stop == count) p.endsVector = hd
    have hp := sendPiece_respects h wait t buffers hd p hs
    generalize t.sendPiece terminals wait buffers hd p s = x at hp ⊢
    generalize t.sendPiece terminals wait buffers hd p s' = x' at hp ⊢
    obtain ⟨sent, t, s⟩ := x
    obtain ⟨sent', t', s'⟩ := x'
    obtain ⟨rfl, rfl, hs⟩ := hp
    cases sent with
    | true => exact ih t hs
    | false => exact ⟨rfl, rfl, hs⟩

theorem send_respects (h : ∀ i, (terminals i).Respects R) (t : Transmitter) (buffers : List (List S)) (count wait : Nat)
    (md : TxMetadata) {s s' : σ} (hs : R s s') :
    SameResult (SameResult R) (t.send terminals buffers count wait md s)
      (t.send terminals buffers count wait md s') := by
  unfold send
  split
  · exact ⟨rfl, rfl, hs⟩
  · split
    · exact ⟨rfl, rfl, hs⟩
    · split
      · split
        · obtain ⟨-, ht, hs⟩ :=
            sendPiece_respects h wait t buffers (t.header md true true false) ⟨0, 0, false⟩ hs
          exact ⟨rfl, ht, hs⟩
        · exact ⟨rfl, rfl, hs⟩
      · obtain ⟨hn, ht, hs⟩ :=
          sendPieces_respects h wait count md buffers (Piece.cut t.packetSamples md.eov count) t hs
        exact ⟨congrArg Except.ok hn, ht, hs⟩

end Transmitter

namespace Receiver

theorem issueFrom_respects (h : ∀ i, (terminals i).Respects R) (c : StreamCommand) (i n : Nat) (r : Receiver)
    {s s' : σ} (hs : R s s') :
    SameResult (SameResult R) (issueFrom terminals c i n r s) (issueFrom terminals c i n r s') := by
  induction n generalizing i s s' with
  | zero => exact ⟨rfl, rfl, hs⟩
  | succ n ih =>
    have hw : Blind (c.encode r.rate) := (c.header r.rate).encodePacket_blind c.payload
    unfold issueFrom
    have hsent := (h i).send hw commandWait hs
    generalize (terminals i).send commandWait (c.encode r.rate) s = x at hsent ⊢
    generalize (terminals i).send commandWait (c.encode r.rate) s' = x' at hsent ⊢
    obtain ⟨result, s⟩ := x
    obtain ⟨result', s'⟩ := x'
    obtain ⟨rfl, hs⟩ := hsent
    match result with
    | none => exact ⟨rfl, rfl, hs⟩
    | some (.error _) => exact ⟨rfl, rfl, hs⟩
    | some (.ok _) => exact ih (i + 1) hs

theorem issue_respects (h : ∀ i, (terminals i).Respects R) (r : Receiver) (c : StreamCommand) {s s' : σ}
    (hs : R s s') : SameResult (SameResult R) (r.issue terminals c s) (r.issue terminals c s') :=
  issueFrom_respects h c 0 r.channels.length r hs

end Receiver

/-- The host does not notice what its surroundings differ in: its calls give the same results. -/
structure Unaware (R : σ → σ → Prop) (terminals : Nat → Terminal σ) : Prop where
  send : ∀ {S : Type} [HostSample S] {s s' : σ}, R s s' → ∀ (t : Transmitter) (buffers : List (List S))
    (count wait : Nat) (md : TxMetadata), SameResult (SameResult R) (t.send terminals buffers count wait md s)
      (t.send terminals buffers count wait md s')
  issue : ∀ {s s' : σ}, R s s' → ∀ (r : Receiver) (c : StreamCommand),
    SameResult (SameResult R) (r.issue terminals c s) (r.issue terminals c s')
  take : ∀ {s s' : σ}, R s s' → ∀ i wait, SameResult R ((terminals i).take wait s) ((terminals i).take wait s')

theorem Unaware.of_respects (h : ∀ i, (terminals i).Respects R) : Unaware R terminals where
  send hs t buffers count wait md := Transmitter.send_respects h t buffers count wait md hs
  issue hs r c := Receiver.issue_respects h r c hs
  take hs i wait := (h i).take wait hs

end Calls

end RadioStream
