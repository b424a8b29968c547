import RadioStream.Receiver.Basic
/-!
# Surroundings that hold more

A receiver may be run in surroundings that hold more than those it was meant for, such
as a record of what went on in them. `Terminal.Shows` says that a terminal does there
what another does in the part that is shown.

The receiver then does not notice: each of its operations commutes with the view, up to
`recv_shown` and `issueFrom_shown`.
-/

namespace RadioStream

variable {τ σ : Type}

/-- A terminal does what another does in what is shown of its surroundings. -/
structure Terminal.Shows (view : τ → σ) (t' : Terminal τ) (t : Terminal σ) : Prop where
  receive : ∀ wait s, t.receive wait (view s) = Prod.map id view (t'.receive wait s)
  recycle : ∀ f s, t.recycle f (view s) = view (t'.recycle f s)
  acquire : ∀ wait s, t.acquire wait (view s) = Prod.map id view (t'.acquire wait s)
  submit : ∀ f s, t.submit f (view s) = view (t'.submit f s)
  backlog : ∀ s, t.backlog (view s) = t'.backlog s

namespace Terminal.Shows

variable {view : τ → σ} {t' : Terminal τ} {t : Terminal σ}

theorem fetch_shown (h : t'.Shows view t) (format : WireFormat) (wait : Nat) (c : RxChannel) (s : τ) :
    RxChannel.fetch t format wait c (view s) =
      Prod.map id (Prod.map id view) (RxChannel.fetch t' format wait c s) := by
  unfold RxChannel.fetch
  -- both sides test the same things, and differ only in what the surroundings hold
  by_cases hh : c.held.isSome
  · rw [if_pos hh, if_pos hh]
    rfl
  · rw [if_neg hh, if_neg hh, h.receive]
    cases t'.receive wait s with
    | mk f x =>
      cases f with
      | none => rfl
      | some f =>
        dsimp only [Prod.map, id]
        rw [h.recycle]
        cases Incoming.ofFrame format f.payload <;> rfl

theorem letGo_shown (h : t'.Shows view t) (test : Held → Bool) (c : RxChannel) (s : τ) :
    RxChannel.letGo t test c (view s) = Prod.map id view (RxChannel.letGo t' test c s) := by
  unfold RxChannel.letGo
  cases c.held with
  | none => rfl
  | some g =>
    dsimp only
    by_cases ht : test g = true
    · rw [if_pos ht, if_pos ht, h.recycle]
      rfl
    · rw [if_neg ht, if_neg ht]
      rfl

theorem advance_shown {S : Type} [HostSample S] (h : t'.Shows view t) (format : WireFormat) (position n : Nat)
    (c : RxChannel) (b : List S) (s : τ) :
    RxChannel.advance t format position n c b (view s) =
      Prod.map id (Prod.map id view) (RxChannel.advance t' format position n c b s) := by
  unfold RxChannel.advance
  cases c.held with
  | none => rfl
  | some g =>
    dsimp only
    by_cases hz : ({ g with offset := g.offset + n } : Held).remaining = 0
    · rw [if_pos hz, if_pos hz, h.recycle]
      rfl
    · rw [if_neg hz, if_neg hz]
      rfl

theorem send_shown (h : t'.Shows view t) (wait : Nat) (write : Bytes → Written) (s : τ) :
    t.send wait write (view s) = Prod.map id view (t'.send wait write s) := by
  unfold Terminal.send
  rw [h.acquire]
  cases t'.acquire wait s with
  | mk f x =>
    cases f with
    | none => rfl
    | some f =>
      dsimp only [Prod.map, id]
      unfold Terminal.sendIn
      dsimp only
      cases (write f.window).outcome with
      | ok n => dsimp only; rw [h.submit]
      | error e => dsimp only; rw [h.submit]

end Terminal.Shows

section Receivers

variable {view : τ → σ} {terminals' : Nat → Terminal τ} {terminals : Nat → Terminal σ}
  (h : ∀ i, (terminals' i).Shows view (terminals i))

include h

theorem fetchAll_shown (format : WireFormat) (wait i : Nat) (cs : List RxChannel) (s : τ) :
    RxChannel.fetchAll terminals format wait i cs (view s) =
      Prod.map id (Prod.map id view) (RxChannel.fetchAll terminals' format wait i cs s) := by
  induction cs generalizing i s with
  | nil => rfl
  | cons c cs ih =>
    unfold RxChannel.fetchAll
    rw [(h i).fetch_shown]
    cases RxChannel.fetch (terminals' i) format wait c s with
    | mk k x =>
      cases k with
      | some k => rfl
      | none => dsimp only [Prod.map, id]; rw [ih]; rfl

theorem dropWhere_shown (test : Held → Bool) (i : Nat) (cs : List RxChannel) (s : τ) :
    RxChannel.dropWhere terminals test i cs (view s) =
      Prod.map id view (RxChannel.dropWhere terminals' test i cs s) := by
  induction cs generalizing i s with
  | nil => rfl
  | cons c cs ih =>
    unfold RxChannel.dropWhere
    rw [(h i).letGo_shown]
    dsimp only [Prod.map, id]
    rw [ih]
    rfl

theorem advanceAll_shown {S : Type} [HostSample S] (format : WireFormat) (position n i : Nat) (cs : List RxChannel)
    (bs : List (List S)) (s : τ) :
    RxChannel.advanceAll terminals format position n i cs bs (view s) =
      Prod.map id (Prod.map id view) (RxChannel.advanceAll terminals' format position n i cs bs s) := by
  induction cs generalizing i bs s with
  | nil => cases bs <;> rfl
  | cons c cs ih =>
    cases bs with
    | nil => rfl
    | cons b bs =>
      unfold RxChannel.advanceAll
      rw [(h i).advance_shown]
      dsimp only [Prod.map, id]
      rw [ih]
      rfl

theorem alignRounds_shown (format : WireFormat) (wait rounds : Nat) (cs : List RxChannel) (s : τ) :
    Receiver.alignRounds terminals format wait rounds cs (view s) =
      Prod.map id (Prod.map id view) (Receiver.alignRounds terminals' format wait rounds cs s) := by
  induction rounds generalizing cs s with
  | zero =>
    unfold Receiver.alignRounds
    rw [dropWhere_shown h]
    rfl
  | succ rounds ih =>
    unfold Receiver.alignRounds
    rw [fetchAll_shown h]
    cases RxChannel.fetchAll terminals' format wait 0 cs s with
    | mk k x =>
      cases k with
      | some k => rfl
      | none =>
        dsimp only [Prod.map, id]
        cases Receiver.newestTick x.1 with
        | none => rfl
        | some newest =>
          dsimp only
          split
          · rw [dropWhere_shown h]
            exact ih _ _
          · rfl

theorem align_shown (wait : Nat) (r : Receiver) (s : τ) :
    r.align terminals wait (view s) = Prod.map id (Prod.map id view) (r.align terminals' wait s) := by
  unfold Receiver.align
  dsimp only
  rw [alignRounds_shown h]
  rfl

variable {S : Type} [HostSample S]

theorem consume_shown (position most : Nat) (r : Receiver) (buffers : List (List S)) (s : τ) :
    r.consume terminals position most buffers (view s) =
      Prod.map id (Prod.map id (Prod.map id view)) (r.consume terminals' position most buffers s) := by
  unfold Receiver.consume
  cases r.leading? with
  | none => rfl
  | some lead =>
    dsimp only
    rw [advanceAll_shown h]
    rfl

theorem gather_shown (wait count fuel : Nat) (last : Portion) (total : Nat) (r : Receiver) (buffers : List (List S))
    (md : RxMetadata) (s : τ) :
    Receiver.gather terminals wait count fuel last total r buffers md (view s) =
      Prod.map id (Prod.map id (Prod.map id (Prod.map id (Prod.map id view))))
        (Receiver.gather terminals' wait count fuel last total r buffers md s) := by
  induction fuel generalizing last total r buffers md s with
  | zero => rfl
  | succ fuel ih =>
    unfold Receiver.gather
    split
    · rw [align_shown h]
      cases r.align terminals' wait s with
      | mk k x =>
        cases k with
        | some k => rfl
        | none =>
          dsimp only [Prod.map, id]
          split
          · rfl
          · rw [consume_shown h]
            exact ih _ _ _ _ _ _
    · rfl

theorem poll_shown (wait : Nat) (r : Receiver) (md : RxMetadata) (s : τ) :
    r.poll terminals wait md (view s) = Prod.map id (Prod.map id view) (r.poll terminals' wait md s) := by
  unfold Receiver.poll
  rw [align_shown h]
  cases r.align terminals' wait s with
  | mk k x =>
    cases k with
    | some k => rfl
    | none =>
      dsimp only [Prod.map, id]
      cases x.1.leading? with
      | none => rfl
      | some lead =>
        dsimp only
        split
        · rw [dropWhere_shown h]
          rfl
        · rfl

/-- What a call leaves behind, as far as it is shown. -/
def Received.shown (view : τ → σ) (x : Received S τ) : Received S σ :=
  ⟨x.outcome, x.buffers, x.metadata, x.receiver, view x.surroundings⟩

theorem patience_shown (r : Receiver) (count : Nat) (s : τ) :
    r.patience terminals count (view s) = r.patience terminals' count s := by
  unfold Receiver.patience
  rw [List.map_congr_left fun i _ => (h i).backlog s]

theorem deliver_shown (r : Receiver) (buffers : List (List S)) (count wait : Nat) (onePacket : Bool)
    (md : RxMetadata) (s : τ) :
    r.deliver terminals buffers count wait onePacket md (view s) =
      (r.deliver terminals' buffers count wait onePacket md s).shown view := by
  unfold Receiver.deliver
  rw [align_shown h]
  cases r.align terminals' wait s with
  | mk k x =>
    cases k with
    | some k => rfl
    | none =>
      dsimp only [Prod.map, id]
      rw [consume_shown h]
      simp only [Prod.map, id, gather_shown h, patience_shown h]
      rfl

/-- A receive call does the same where the surroundings hold more. -/
theorem recv_shown (r : Receiver) (buffers : List (List S)) (count wait : Nat) (onePacket : Bool)
    (md : RxMetadata) (s : τ) :
    r.recv terminals buffers count wait onePacket md (view s) =
      (r.recv terminals' buffers count wait onePacket md s).shown view := by
  unfold Receiver.recv
  split
  · rfl
  · split
    · rfl
    · dsimp only
      split
      · rfl
      · split
        · rw [poll_shown h]
          rfl
        · rw [deliver_shown h]

omit [HostSample S] in
/-- So does a command. -/
theorem issueFrom_shown (c : StreamCommand) (n i : Nat) (r : Receiver) (s : τ) :
    Receiver.issueFrom terminals c i n r (view s) =
      Prod.map id (Prod.map id view) (Receiver.issueFrom terminals' c i n r s) := by
  induction n generalizing i r s with
  | zero => rfl
  | succ n ih =>
    unfold Receiver.issueFrom
    rw [(h i).send_shown]
    cases (terminals' i).send Receiver.commandWait (c.encode r.rate) s with
    | mk k x =>
      cases k with
      | none => rfl
      | some res =>
        cases res with
        | error e => rfl
        | ok => exact ih _ _ _

end Receivers

end RadioStream
