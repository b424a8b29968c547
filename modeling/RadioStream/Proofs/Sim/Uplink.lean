import RadioStream.Proofs.Sim.TransmitLine
import RadioStream.Transmitter.Basic
/-!
# A transmitter and the chains of a device

The links of a transmitter lead to transmit chains, which go on with their work whenever
the transmitter waits for a frame or sends one: each of its moves is preceded by anything
that the agenda holds. Whatever it sends, and however the chains take their turns, the
alarms of every chain are true.
-/

namespace RadioStream.Sim

/-- The lines of a transmitter. The agenda holds what happens before each of its next
moves, by line. -/
structure Uplink where
  lines : List TransmitLine
  agenda : List (List (Nat × LineAction)) := []

/-- Some lines after actions, each at one of them. -/
def actAll (xs : List TransmitLine) (as : List (Nat × LineAction)) : List TransmitLine :=
  as.foldl (fun xs a => xs.modify a.1 (·.step a.2)) xs

namespace Uplink

/-- What is next on the agenda happens. -/
def elapse (u : Uplink) : Uplink :=
  match u.agenda with
  | [] => u
  | as :: agenda => { lines := actAll u.lines as, agenda }

/-- The host end of a line. -/
def host : Terminal TransmitLine where
  receive _ x := let (f, link) := x.link.receive .host; (f, { x with link })
  recycle f x := { x with link := x.link.recycle .host f }
  acquire _ x := let (f, link) := x.link.acquire .host; (f, { x with link })
  submit f x := { x with link := x.link.submit .host f }
  backlog x := x.link.pending .host

/-- The host end of one of the lines, before each use of which the agenda goes on. -/
def terminal (i : Nat) : Terminal Uplink where
  receive wait u := let (f, lines) := (Terminal.within i host).receive wait u.elapse.lines; (f, { u.elapse with lines })
  recycle f u := { u.elapse with lines := (Terminal.within i host).recycle f u.elapse.lines }
  acquire wait u := let (f, lines) := (Terminal.within i host).acquire wait u.elapse.lines; (f, { u.elapse with lines })
  submit f u := { u.elapse with lines := (Terminal.within i host).submit f u.elapse.lines }
  backlog u := (Terminal.within i host).backlog u.lines

theorem acquire_terminal (i wait : Nat) (u : Uplink) :
    (terminal i).acquire wait u = (((Terminal.within i host).acquire wait u.elapse.lines).1,
      { u.elapse with lines := ((Terminal.within i host).acquire wait u.elapse.lines).2 }) := rfl

theorem submit_terminal (i : Nat) (f : Frame) (u : Uplink) :
    (terminal i).submit f u = { u.elapse with lines := (Terminal.within i host).submit f u.elapse.lines } := rfl

end Uplink

/-! ## Sessions -/

/-- A transmitter and its lines. -/
structure TxSession where
  transmitter : Transmitter
  lines : List TransmitLine

/-- What happens in a session. -/
inductive TxAction (S : Type) where
  | send (buffers : List (List S)) (count wait : Nat) (md : TxMetadata) (agenda : List (List (Nat × LineAction)))
  /-- Something happens on the lines between two calls. -/
  | elapse (as : List (Nat × LineAction))

namespace TxSession

variable {S : Type} [HostSample S]

def step (s : TxSession) : TxAction S → TxSession
  | .send buffers count wait md agenda =>
    let (_, transmitter, u) := s.transmitter.send Uplink.terminal buffers count wait md { lines := s.lines, agenda }
    { transmitter, lines := u.lines }
  | .elapse as => { s with lines := actAll s.lines as }

def run (s : TxSession) (as : List (TxAction S)) : TxSession := as.foldl step s

end TxSession

/-! ## What sending keeps -/

/-- Each line is sound for the number of its next packet and the frames in hand. -/
def AllSound (format : WireFormat) : List (UInt16 × Nat) → List TransmitLine → Prop :=
  List.Forall₂ fun d x => x.Sound format d.1 d.2

namespace AllSound

variable {format : WireFormat} {ds es : List (UInt16 × Nat)} {xs : List TransmitLine} {q : UInt16} {k : Nat}
  {u : Uplink} {S : Type} [HostSample S]

theorem modify (h : AllSound format ds xs) (i : Nat) (a : LineAction) :
    AllSound format ds (xs.modify i (·.step a)) := by
  induction h generalizing i with
  | nil => simp only [List.modify_nil]; exact .nil
  | cons hx hr ih =>
    cases i with
    | zero => exact .cons (hx.step a) hr
    | succ i => exact .cons hx (ih i)

theorem actAll (h : AllSound format ds xs) (as : List (Nat × LineAction)) : AllSound format ds (actAll xs as) := by
  induction as generalizing xs with
  | nil => exact h
  | cons a as ih => exact ih (h.modify a.1 a.2)

theorem elapse (h : AllSound format ds u.lines) : AllSound format ds u.elapse.lines := by
  unfold Uplink.elapse
  split
  · exact h
  · exact h.actAll _

theorem truthful (h : AllSound format ds xs) : ∀ x ∈ xs, x.Truthful := by
  induction h with
  | nil => simp
  | cons hx _ ih => exact List.forall_mem_cons.2 ⟨hx.truthful, ih⟩

/-- The line of a channel among several. -/
theorem exists_line (h : AllSound format (ds ++ (q, k) :: es) xs) :
    ∃ b x c, xs = b ++ x :: c ∧ b.length = ds.length ∧ x.Sound format q k ∧
      ∀ {x' q' k'}, TransmitLine.Sound format q' k' x' → AllSound format (ds ++ (q', k') :: es) (b ++ x' :: c) := by
  induction ds generalizing xs with
  | nil =>
    cases h with
    | cons hx hr => exact ⟨[], _, _, rfl, rfl, hx, fun h => .cons h hr⟩
  | cons d ds ih =>
    cases h with
    | cons hx hr =>
      obtain ⟨b, x, c, rfl, hl, hs, hput⟩ := ih hr
      exact ⟨_ :: b, x, c, rfl, by simp [hl], hs, fun h => .cons hx (hput h)⟩

/-- A frame is taken on one of the lines, if there is one. -/
theorem acquire (h : AllSound format (ds ++ (q, k) :: es) u.lines) (wait : Nat) :
    ∃ res u', (Uplink.terminal ds.length).acquire wait u = (res, u') ∧
      AllSound format (ds ++ (q, if res.isSome then k + 1 else k) :: es) u'.lines := by
  obtain ⟨b, x, c, hx, hl, hs, hput⟩ := h.elapse.exists_line
  refine ⟨_, { u.elapse with lines := b ++ { x with link := (x.link.acquire .host).2 } :: c }, ?_, hput hs.acquire⟩
  rw [Uplink.acquire_terminal, hx, ← hl, Terminal.acquire_within]
  rfl

theorem submit_empty (h : AllSound format (ds ++ (q, k + 1) :: es) u.lines) {f : Frame} (hu : f.used = 0) :
    AllSound format (ds ++ (q, k) :: es) ((Uplink.terminal ds.length).submit f u).lines := by
  obtain ⟨b, x, c, hx, hl, hs, hput⟩ := h.elapse.exists_line
  rw [Uplink.submit_terminal, hx, ← hl, Terminal.submit_within]
  exact hput (hs.submit_empty hu)

theorem submit (h : AllSound format (ds ++ (q, k + 1) :: es) u.lines) {f : Frame} (hu : f.used ≠ 0)
    (hq : Numbers format q f.payload) :
    AllSound format (ds ++ (q + 1, k) :: es) ((Uplink.terminal ds.length).submit f u).lines := by
  obtain ⟨b, x, c, hx, hl, hs, hput⟩ := h.elapse.exists_line
  rw [Uplink.submit_terminal, hx, ← hl, Terminal.submit_within]
  exact hput (hs.submit hu hq)

/-- A packet is written into a frame in hand and counted, or the frame is too small. -/
theorem sendIn (h : AllSound format (ds ++ (q, k + 1) :: es) u.lines) {g : Header} (hk : g.kind = .data) (xs : List S)
    (f : Frame) :
    AllSound format
      (ds ++ (if ((Uplink.terminal ds.length).sendIn (Header.encodeSamples { g with sequence := q } format xs) f
        u).1.isOk then q + 1 else q, k) :: es)
      ((Uplink.terminal ds.length).sendIn (Header.encodeSamples { g with sequence := q } format xs) f u).2.lines := by
  unfold Terminal.sendIn
  by_cases hsize : f.window.length < Header.size
  · have he : Header.encodeSamples { g with sequence := q } format xs f.window =
        ⟨.error (.argument (.noRoomForHeader f.window.length)), f.window⟩ := if_pos hsize
    rw [he]
    exact h.submit_empty rfl
  · obtain ⟨ys, w, he, hw, hfit, ht⟩ :=
      Header.exists_encodeSamples { g with sequence := q } format xs (Nat.le_of_not_lt hsize)
    rw [he]
    have hused : min (Header.size + ys.length * format.sampleBytes) w.length =
        Header.size + ys.length * format.sampleBytes := Nat.min_eq_left (by omega)
    refine h.submit ?_ ?_
    · show min (Header.size + ys.length * format.sampleBytes) w.length ≠ 0
      rw [hused, Header.size]
      omega
    · show Numbers format q (w.take (min (Header.size + ys.length * format.sampleBytes) w.length))
      rw [hused, ht]
      exact numbers_bytes format (show (Header.kind { g with sequence := q }) = .data from hk) ys

end AllSound

namespace Uplink

open Transmitter

variable {format : WireFormat} {S : Type} [HostSample S]

/-- All lines give a frame, or those taken go home. -/
theorem acquireAll_sound (wait : Nat) (qs : List UInt16) (ds : List (UInt16 × Nat)) (u : Uplink)
    (h : AllSound format (ds ++ qs.map (·, 0)) u.lines) :
    ∃ res u', acquireAll Uplink.terminal wait ds.length qs.length u = (res, u') ∧
      match res with
      | none => AllSound format (ds ++ qs.map (·, 0)) u'.lines
      | some fs => fs.length = qs.length ∧ AllSound format (ds ++ qs.map (·, 1)) u'.lines := by
  induction qs generalizing ds u with
  | nil => exact ⟨some [], u, rfl, rfl, h⟩
  | cons q qs ih =>
    obtain ⟨res, u₁, hr, ha⟩ := h.acquire wait
    rw [List.length_cons, acquireAll, hr]
    cases res with
    | none => exact ⟨none, u₁, rfl, ha⟩
    | some f =>
      dsimp only
      obtain ⟨res, u₂, he, hres⟩ := ih (ds ++ [(q, 1)]) u₁ (by simpa using ha)
      rw [List.length_append, List.length_singleton] at he
      rw [he]
      cases res with
      | none =>
        -- the frame taken goes home empty
        refine ⟨none, _, rfl, ?_⟩
        exact AllSound.submit_empty (by simpa using hres) rfl
      | some fs =>
        refine ⟨some (f :: fs), u₂, rfl, ?_, ?_⟩
        · rw [List.length_cons, hres.1]
        · simpa using hres.2

/-- A frame is sent on all lines, and each counts its own. -/
theorem sendAll_sound {g : Header} (hk : g.kind = .data) (qs : List UInt16) (bs : List (List S)) (fs : List Frame)
    (ds : List (UInt16 × Nat)) (u : Uplink) (hb : bs.length = qs.length) (hf : fs.length = qs.length)
    (h : AllSound format (ds ++ qs.map (·, 1)) u.lines) :
    ∃ qs' u', sendAll Uplink.terminal format g ds.length qs bs fs u = (qs', u') ∧ qs'.length = qs.length ∧
      AllSound format (ds ++ qs'.map (·, 0)) u'.lines := by
  induction qs generalizing bs fs ds u with
  | nil => exact ⟨[], u, by simp [sendAll], rfl, h⟩
  | cons q qs ih =>
    obtain ⟨b, bs, rfl⟩ := List.exists_cons_of_length_eq_add_one hb
    obtain ⟨f, fs, rfl⟩ := List.exists_cons_of_length_eq_add_one hf
    have hs := AllSound.sendIn (show AllSound format (ds ++ (q, 0 + 1) :: qs.map (·, 1)) u.lines from h) hk b f
    rw [sendAll]
    dsimp only
    generalize (Uplink.terminal ds.length).sendIn (Header.encodeSamples { g with sequence := q } format b) f u = r at *
    generalize (if r.1.isOk = true then q + 1 else q) = q' at *
    obtain ⟨qs', u', he, hl, hs'⟩ := ih bs fs (ds ++ [(q', 0)]) r.2 (Nat.succ.inj hb) (Nat.succ.inj hf)
      (by simpa using hs)
    rw [List.length_append, List.length_singleton] at he
    rw [he]
    exact ⟨q' :: qs', u', rfl, by rw [List.length_cons, hl, List.length_cons], by simpa using hs'⟩

/-- A transmitter counts on each line the packets that the line got. -/
structure InStep (format : WireFormat) (channels : Nat) (t : Transmitter) (u : Uplink) : Prop where
  writes : t.format = format
  channels : t.sequences.length = channels
  sound : AllSound format (t.sequences.map (·, 0)) u.lines

variable {channels : Nat} {t : Transmitter} {u : Uplink}

theorem InStep.sendPiece (h : InStep format channels t u) (wait : Nat) {buffers : List (List S)}
    (hb : buffers.length = channels) {g : Header} (hk : g.kind = .data) (p : Piece) :
    ∃ ok t' u', t.sendPiece terminal wait buffers g p u = (ok, t', u') ∧ InStep format channels t' u' := by
  obtain ⟨rfl, hc, hs⟩ := h
  obtain ⟨res, u₁, he, hres⟩ := acquireAll_sound wait t.sequences [] u hs
  unfold Transmitter.sendPiece
  rw [List.length_nil] at he
  rw [he]
  cases res with
  | none => exact ⟨false, t, u₁, rfl, rfl, hc, hres⟩
  | some fs =>
    obtain ⟨qs, u₂, he', hl, hs'⟩ := sendAll_sound hk t.sequences
      (buffers.map fun b => (b.drop p.start).take (p.stop - p.start)) fs [] u₁
      (by rw [List.length_map, hb, hc]) hres.1 hres.2
    rw [List.length_nil] at he'
    dsimp only
    rw [he']
    exact ⟨true, { t with sequences := qs }, u₂, rfl, rfl, hl.trans hc, hs'⟩

theorem InStep.sendPieces (h : InStep format channels t u) (wait count : Nat) (md : TxMetadata)
    {buffers : List (List S)} (hb : buffers.length = channels) (ps : List Piece) :
    ∃ n t' u', Transmitter.sendPieces terminal wait count md buffers ps t u = (n, t', u') ∧
      InStep format channels t' u' := by
  induction ps generalizing t u with
  | nil => exact ⟨count, t, u, rfl, h⟩
  | cons p ps ih =>
    have hk : (t.header md (p.start == 0) (p.stop == count) p.endsVector).kind = .data := by
      unfold Transmitter.header Header.stamped
      split <;> rfl
    obtain ⟨ok, t', u', he, h'⟩ := h.sendPiece wait hb hk p
    unfold Transmitter.sendPieces
    dsimp only
    rw [he]
    cases ok with
    | true => exact ih h'
    | false => exact ⟨p.start, t', u', rfl, h'⟩

/-- Whatever a call is asked to send, and however far it gets. -/
theorem InStep.send (h : InStep format channels t u) (buffers : List (List S)) (count wait : Nat) (md : TxMetadata) :
    ∃ res t' u', t.send terminal buffers count wait md u = (res, t', u') ∧ InStep format channels t' u' := by
  unfold Transmitter.send
  by_cases hb : buffers.length = t.sequences.length
  · rw [if_neg (fun hne => hne hb)]
    cases buffers.find? (·.length < count) with
    | some short => exact ⟨_, t, u, rfl, h⟩
    | none =>
      have hb' : buffers.length = channels := hb.trans h.channels
      dsimp only
      by_cases hz : count = 0
      · rw [if_pos hz]
        by_cases hm : (md.startOfBurst || md.endOfBurst) = true
        · rw [if_pos hm]
          have hk : (t.header md true true false).kind = .data := by
            unfold Transmitter.header Header.stamped
            split <;> rfl
          obtain ⟨ok, t', u', he, h'⟩ := h.sendPiece wait hb' hk ⟨0, 0, false⟩
          rw [he]
          exact ⟨_, t', u', rfl, h'⟩
        · rw [if_neg hm]
          exact ⟨_, t, u, rfl, h⟩
      · rw [if_neg hz]
        obtain ⟨n, t', u', he, h'⟩ := h.sendPieces wait count md hb' (Piece.cut t.packetSamples md.eov count)
        rw [he]
        exact ⟨_, t', u', rfl, h'⟩
  · rw [if_pos hb]
    exact ⟨_, t, u, rfl, h⟩

end Uplink

namespace TxSession

variable {format : WireFormat} {channels : Nat} {S : Type} [HostSample S] {s : TxSession}

/-- A transmitter counts on each line the packets that the line got. -/
def InStep (format : WireFormat) (channels : Nat) (s : TxSession) : Prop :=
  Uplink.InStep format channels s.transmitter { lines := s.lines }

theorem InStep.step (h : s.InStep format channels) (a : TxAction S) : (s.step a).InStep format channels := by
  cases a with
  | send buffers count wait md agenda =>
    have h' : Uplink.InStep format channels s.transmitter { lines := s.lines, agenda } :=
      ⟨h.writes, h.channels, h.sound⟩
    obtain ⟨res, t', u', he, hs⟩ := h'.send buffers count wait md
    unfold TxSession.step
    dsimp only
    rw [he]
    exact ⟨hs.writes, hs.channels, hs.sound⟩
  | elapse as => exact ⟨h.writes, h.channels, h.sound.actAll as⟩

theorem InStep.run (h : s.InStep format channels) (as : List (TxAction S)) : (s.run as).InStep format channels := by
  induction as generalizing s with
  | nil => exact h
  | cons a as ih => exact ih (h.step a)

/-- A new transmitter and chains that have just started. -/
theorem InStep.fresh {rate : Float} {most : Nat} {xs : List TransmitLine} {t : Transmitter}
    (ht : Transmitter.new (xs.map fun x => (x.link.geometry .host).sendFrameSize) format rate most = .ok t)
    (hx : ∀ x ∈ xs, ∃ g l channel stall injections,
      Link.new g = .ok l ∧ x = TransmitLine.fresh channel format stall injections l) :
    InStep format xs.length ⟨t, xs⟩ := by
  unfold Transmitter.new at ht
  split at ht
  · cases ht
  · dsimp only at ht
    split at ht
    · cases ht
    · cases ht
      refine ⟨rfl, by rw [List.length_map, List.length_map], ?_⟩
      unfold AllSound
      dsimp only
      rw [List.map_map, List.map_map, List.forall₂_map_left_iff, List.forall₂_same]
      intro x hm
      obtain ⟨g, l, channel, stall, injections, hl, rfl⟩ := hx x hm
      exact .fresh hl channel format stall injections

theorem InStep.truthful (h : s.InStep format channels) : ∀ x ∈ s.lines, x.Truthful :=
  h.sound.truthful

end TxSession

/-- A transmitter, and chains of its format that read its links: whatever is sent, in
whatever portions, and however the chains take their steps, no chain raises a sequence
error or an underflow in a packet, and each end of a burst is acknowledged once, or its
burst was reported once to be late. -/
theorem no_false_alarms {S : Type} [HostSample S] {format : WireFormat} {rate : Float} {most : Nat}
    {xs : List TransmitLine} {t : Transmitter}
    (ht : Transmitter.new (xs.map fun x => (x.link.geometry .host).sendFrameSize) format rate most = .ok t)
    (hx : ∀ x ∈ xs, ∃ g l channel stall injections,
      Link.new g = .ok l ∧ x = TransmitLine.fresh channel format stall injections l)
    (as : List (TxAction S)) : ∀ x ∈ (TxSession.run ⟨t, xs⟩ as).lines, x.Truthful :=
  ((TxSession.InStep.fresh ht hx).run as).truthful

/-- One frame and two packets: the chain takes the first while the transmitter waits for
a frame for the second, and acknowledges the burst after it. -/
theorem no_false_alarms_burst :
    let now : Reading := { elapsed := 1, tick := 1, left? := fun _ => some 0 }
    let steps (n : Nat) : List (Nat × LineAction) := List.replicate n (0, .chain now)
    let samples : List (Iq Int16) := [⟨1, 2⟩, ⟨3, 4⟩, ⟨5, 6⟩]
    let as : List (TxAction (Iq Int16)) :=
      [.send [samples] 3 0 { startOfBurst := true, endOfBurst := true } [[], [], steps 3, steps 1], .elapse (steps 9)]
    let g : Geometry := { recvFrameSize := 40, sendFrameSize := 24, recvFrames := 1, sendFrames := 1 }
    let t : Transmitter := { sequences := [0], format := .sc16, rate := 1, packetSamples := 2 }
    ∃ l, Link.new g = .ok l ∧
      let xs := [TransmitLine.fresh 0 .sc16 5 (Queue.new 1) l]
      Transmitter.new (xs.map fun x => (x.link.geometry .host).sendFrameSize) .sc16 1 8 = .ok t ∧
      (TxSession.run ⟨t, xs⟩ as).lines.map (·.alarms) = [[.burstAck]] ∧
      (TxSession.run ⟨t, xs⟩ as).lines.map (·.taken.map fun p => (p.header.sequence, p.done, p.acks)) =
        [[(1, true, 1), (0, true, 0)]] ∧
      ∀ x ∈ (TxSession.run ⟨t, xs⟩ as).lines, x.Truthful := by
  intro now steps samples as g t
  have hl : ∃ l, Link.new g = .ok l := ⟨_, rfl⟩
  obtain ⟨l, hl⟩ := hl
  have ht : Transmitter.new ([TransmitLine.fresh 0 .sc16 5 (Queue.new 1) l].map fun x =>
      (x.link.geometry .host).sendFrameSize) .sc16 1 8 = .ok t := by
    have hsize : ([TransmitLine.fresh 0 .sc16 5 (Queue.new 1) l].map fun x =>
        (x.link.geometry .host).sendFrameSize) = [24] := by
      cases hl
      rfl
    rw [hsize]
    simp [Transmitter.new, Header.size, WireFormat.sampleBytes, t]
  refine ⟨l, hl, ht, ?_, ?_, no_false_alarms ht (fun x hx => ?_) as⟩
  · cases hl
    decide +kernel
  · cases hl
    decide +kernel
  · rw [List.mem_singleton] at hx
    exact ⟨g, l, 0, 5, Queue.new 1, hl, hx⟩

end RadioStream.Sim
