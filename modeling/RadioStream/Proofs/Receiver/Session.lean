import RadioStream.Proofs.Receiver.Call
import RadioStream.Proofs.Receiver.Recording
/-!
# Receivers over time

A session is a receiver in its surroundings while calls are made and anything else
goes on around it. `Described` relates a session to tracks between two calls, and
`Described.recv` is the step: a call does nothing or goes the way of a `Call`, and
what it returns is what the tracks have given. `Reaches.run` says that what calls
keep, a run keeps.

To speak of the frames that a session has taken, the same session is run in
surroundings that remember them. `erase_run` says that this makes no difference.
-/

namespace RadioStream

/-! ## Sessions -/

/-- What a receive call gives its caller. -/
structure RxReturn (S : Type) where
  outcome : Except Error Nat
  buffers : List (List S)
  metadata : RxMetadata

/-- The samples that a call put into a buffer. -/
def RxReturn.samples {S : Type} (x : RxReturn S) (i : Nat) : List S :=
  match x.outcome with
  | .ok n => (x.buffers[i]?.getD []).take n
  | .error _ => []

/-- What a call returns tells what it reports and what the tracks have given. -/
structure RxReturn.Tells {S : Type} [HostSample S] (rep : RxReport) (ts : List Track) (y : RxReturn S) : Prop where
  outcome : y.outcome = .ok rep.count
  metadata : y.metadata = rep.metadata
  samples : ∀ i t, ts[i]? = some t → y.samples i = t.given.map HostSample.ofRaw

/-- What happens in a session. -/
inductive RxAction (S σ : Type) where
  | recv (buffers : List (List S)) (count wait : Nat) (onePacket : Bool) (md : RxMetadata)
  | issue (c : StreamCommand)
  /-- Anything that goes on in the surroundings. -/
  | elapse (f : σ → σ)

/-- The action is not a call for no samples. -/
def RxAction.Asks {S σ : Type} : RxAction S σ → Prop
  | .recv _ count _ _ _ => 0 < count
  | _ => True

/-- A receiver in its surroundings, with what its calls have returned. -/
structure RxSession (S σ : Type) where
  receiver : Receiver
  surroundings : σ
  returns : List (RxReturn S) := []

namespace RxSession

variable {S σ : Type}

/-- All samples returned on a channel. -/
def returned (x : RxSession S σ) (i : Nat) : List S := x.returns.flatMap (·.samples i)

theorem returned_concat {x x' : RxSession S σ} {y : RxReturn S} (h : x'.returns = x.returns ++ [y]) (i : Nat) :
    x'.returned i = x.returned i ++ y.samples i := by
  rw [returned, h, List.flatMap_append, List.flatMap_singleton, returned]

variable [HostSample S]

def step (terminals : Nat → Terminal σ) (x : RxSession S σ) : RxAction S σ → RxSession S σ
  | .recv buffers count wait onePacket md =>
    let y := x.receiver.recv terminals buffers count wait onePacket md x.surroundings
    ⟨y.receiver, y.surroundings, x.returns ++ [⟨y.outcome, y.buffers, y.metadata⟩]⟩
  | .issue c =>
    let (_, r, s) := x.receiver.issue terminals c x.surroundings
    { x with receiver := r, surroundings := s }
  | .elapse f => { x with surroundings := f x.surroundings }

def run (terminals : Nat → Terminal σ) (x : RxSession S σ) (as : List (RxAction S σ)) : RxSession S σ :=
  as.foldl (step terminals) x

theorem run_concat (terminals : Nat → Terminal σ) (x : RxSession S σ) (as : List (RxAction S σ)) (a : RxAction S σ) :
    x.run terminals (as ++ [a]) = (x.run terminals as).step terminals a :=
  List.foldl_concat ..

end RxSession

/-! ## Tracks of a session -/

/-- Between two calls, tracks tell how far a session has come. -/
structure Described {S σ : Type} [HostSample S] {terminals : Nat → Terminal σ} (L : Ledger terminals)
    (x : RxSession S σ) (ts : List Track) : Prop where
  channels : x.receiver.channels = ts.map (·.channel)
  nonempty : ts ≠ []
  sound : ∀ t ∈ ts, t.Sound x.receiver.format
  fresh : ∀ t ∈ ts, t.given = []
  tells : L.Tells (ts.map (·.account)) x.surroundings
  returned : ∀ i t, ts[i]? = some t → x.returned i = t.earlier.map HostSample.ofRaw

/-- Where nothing changes of the tracks, each had a counterpart. -/
theorem Track.exists_of_map_eq {α : Type} {f : Track → α} {ts ts' : List Track} (h : ts'.map f = ts.map f) {i : Nat}
    {t' : Track} (ht' : ts'[i]? = some t') : ∃ t, ts[i]? = some t ∧ f t = f t' := by
  have hi : (ts.map f)[i]? = some (f t') := by rw [← h, List.getElem?_map, ht', Option.map_some]
  rwa [List.getElem?_map, Option.map_eq_some_iff] at hi

/-- The samples in a buffer after a call are those that the track has given. -/
theorem samples_fill {S : Type} [HostSample S] {buffers : List (List S)} {ts : List Track} {n : Nat}
    {md : RxMetadata} (hl : buffers.length = ts.length) (hg : ∀ t ∈ ts, t.given.length = n) {i : Nat} {t : Track}
    (ht : ts[i]? = some t) :
    (RxReturn.mk (.ok n) (fill buffers (ts.map (·.given))) md).samples i = t.given.map HostSample.ofRaw := by
  have hi : i < buffers.length := by rw [hl]; exact (List.getElem?_eq_some_iff.1 ht).1
  have hn : (t.given.map (HostSample.ofRaw (σ := S))).length = n := by
    rw [List.length_map]
    exact hg t (List.mem_of_getElem? ht)
  simp only [RxReturn.samples, fill, List.getElem?_zipWith, List.getElem?_map, ht, List.getElem?_eq_getElem hi,
    Option.map_some, Option.getD_some]
  rw [splice, List.take_zero, List.nil_append, ← hn, List.take_left]

section Steps

variable {S σ : Type} [HostSample S] {terminals : Nat → Terminal σ} {L : Ledger terminals} {x : RxSession S σ}
  {ts : List Track}

/-- A receive call that the arguments allow does what `Call` says. -/
theorem Described.recv_allowed (h : Described L x ts) {buffers : List (List S)} {count : Nat} (wait : Nat)
    (onePacket : Bool) (md : RxMetadata) (hl : buffers.length = ts.length) (hb : ∀ b ∈ buffers, count ≤ b.length) :
    ∃ rep ts' st s' y, x.step terminals (.recv buffers count wait onePacket md) =
        ⟨{ x.receiver with channels := ts'.map (·.channel), state := st, deferred := rep.kept }, s',
          x.returns ++ [y]⟩ ∧
      Call x.receiver.format x.receiver.rate count onePacket md x.receiver.deferred ts rep ts' ∧
      Ready x.receiver.format rep.count ts' ∧ y.Tells rep ts' ∧ L.Tells (ts'.map (·.account)) s' := by
  obtain ⟨rep, ts', st, s', he, hC, hT⟩ := recv_spec L count wait onePacket md h.channels h.nonempty h.sound
    h.fresh hl hb h.tells
  have hr : Ready x.receiver.format rep.count ts' :=
    hC.ready ⟨h.nonempty, h.sound, fun t ht => by rw [h.fresh t ht]; rfl⟩
  have hl' : buffers.length = ts'.length := by rw [hl, hC.length]
  exact ⟨rep, ts', st, s', _, by rw [RxSession.step, he], hC, hr,
    ⟨rfl, rfl, fun i t ht => samples_fill hl' hr.given ht⟩, hT⟩

/-- A receive call does nothing, or what `Call` says. -/
theorem Described.recv (h : Described L x ts) (buffers : List (List S)) (count wait : Nat) (onePacket : Bool)
    (md : RxMetadata) :
    (∃ e, x.step terminals (.recv buffers count wait onePacket md) =
        { x with returns := x.returns ++ [⟨.error e, buffers, md⟩] }) ∨
      ∃ rep ts' st s' y, x.step terminals (.recv buffers count wait onePacket md) =
          ⟨{ x.receiver with channels := ts'.map (·.channel), state := st, deferred := rep.kept }, s',
            x.returns ++ [y]⟩ ∧
        Call x.receiver.format x.receiver.rate count onePacket md x.receiver.deferred ts rep ts' ∧
        Ready x.receiver.format rep.count ts' ∧ y.Tells rep ts' ∧ L.Tells (ts'.map (·.account)) s' := by
  by_cases ha : buffers.length = ts.length ∧ ∀ b ∈ buffers, count ≤ b.length
  · exact .inr (h.recv_allowed wait onePacket md ha.1 ha.2)
  · left
    have hbad : ¬(buffers.length = x.receiver.channels.length ∧ ∀ b ∈ buffers, count ≤ b.length) := by
      rwa [h.channels, List.length_map]
    obtain ⟨e, he⟩ := recv_misuse terminals count wait onePacket md x.surroundings hbad
    exact ⟨e, by rw [RxSession.step, he]⟩

/-- A call that does nothing changes nothing for the tracks. -/
theorem Described.misuse (h : Described L x ts) (e : Error) (buffers : List (List S)) (md : RxMetadata) :
    Described L { x with returns := x.returns ++ [⟨.error e, buffers, md⟩] } ts where
  channels := h.channels
  nonempty := h.nonempty
  sound := h.sound
  fresh := h.fresh
  tells := h.tells
  returned i t ht := by
    rw [RxSession.returned_concat (x := x) rfl, h.returned i t ht]
    exact List.append_nil _

/-- Between two calls the tracks begin anew. -/
theorem Described.turn (h : Described L x ts) {ts' : List Track} {st : StreamState} {s' : σ} {y : RxReturn S}
    {rep : RxReport} {d : Option Condition} (he : ts'.map (·.earlier) = ts.map (·.earlier))
    (hr : Ready x.receiver.format rep.count ts') (hy : y.Tells rep ts')
    (hT : L.Tells (ts'.map (·.account)) s') :
    Described L ⟨{ x.receiver with channels := ts'.map (·.channel), state := st, deferred := d }, s',
      x.returns ++ [y]⟩ (ts'.map Track.turn) where
  channels := by rw [List.map_map]; rfl
  nonempty := by simpa using hr.nonempty
  sound t ht := by
    obtain ⟨u, hu, rfl⟩ := List.mem_map.1 ht
    exact (hr.sound u hu).turn
  fresh t ht := by
    obtain ⟨u, hu, rfl⟩ := List.mem_map.1 ht
    rfl
  tells := by rw [List.map_map]; exact hT
  returned i t ht := by
    rw [List.getElem?_map, Option.map_eq_some_iff] at ht
    obtain ⟨u, hu, rfl⟩ := ht
    obtain ⟨t, ht, het⟩ := Track.exists_of_map_eq he hu
    rw [RxSession.returned_concat (x := x) rfl, hy.samples i u hu, h.returned i t ht, het, Track.turn, Track.total,
      List.map_append]

end Steps

/-! ## Commands -/

section Commands

variable {σ α : Type} {f : σ → α}

/-- What neither filling nor sending a frame changes, sending a packet does not change. -/
theorem send_keeps {t : Terminal σ} (ha : ∀ wait s, f (t.acquire wait s).2 = f s)
    (hs : ∀ frame s, f (t.submit frame s) = f s) (wait : Nat) (write : Bytes → Written) (s : σ) :
    f (t.send wait write s).2 = f s := by
  have h := ha wait s
  unfold Terminal.send
  rcases he : t.acquire wait s with ⟨_ | frame, s₁⟩
  · rwa [he] at h
  · rw [he] at h
    dsimp only
    unfold Terminal.sendIn
    dsimp only
    split <;> exact (hs _ _).trans h

/-- A command changes the state of the receiver and sends packets. -/
theorem issueFrom_keeps (terminals : Nat → Terminal σ) (ha : ∀ i wait s, f ((terminals i).acquire wait s).2 = f s)
    (hs : ∀ i frame s, f ((terminals i).submit frame s) = f s) (c : StreamCommand) (n i : Nat) (r : Receiver) (s : σ) :
    ∃ res st s', Receiver.issueFrom terminals c i n r s = (res, { r with state := st }, s') ∧ f s' = f s := by
  induction n generalizing i r s with
  | zero => exact ⟨_, _, s, rfl, rfl⟩
  | succ n ih =>
    have ht := send_keeps (ha i) (hs i) Receiver.commandWait (c.encode r.rate) s
    unfold Receiver.issueFrom
    rcases he : (terminals i).send Receiver.commandWait (c.encode r.rate) s with ⟨_ | res, s₁⟩ <;> rw [he] at ht
    · -- once a channel has the command, the receiver is in its state
      by_cases hi : 0 < i
      · exact ⟨_, _, s₁, by rw [if_pos hi], ht⟩
      · exact ⟨_, r.state, s₁, by rw [if_neg hi], ht⟩
    · cases res with
      | error e => exact ⟨_, r.state, _, rfl, ht⟩
      | ok =>
        obtain ⟨res, st, s', he', ht'⟩ := ih (i + 1) r s₁
        exact ⟨res, st, s', he', ht'.trans ht⟩

end Commands

/-! ## Sessions in surroundings that hold more -/

/-- The same action in surroundings that hold more. -/
def RxAction.lifted {S σ τ : Type} (lift : (σ → σ) → τ → τ) : RxAction S σ → RxAction S τ
  | .recv buffers count wait onePacket md => .recv buffers count wait onePacket md
  | .issue c => .issue c
  | .elapse f => .elapse (lift f)

namespace RxSession

variable {S σ τ : Type} [HostSample S] {view : τ → σ} {lift : (σ → σ) → τ → τ} {terminals : Nat → Terminal σ}
  {terminals' : Nat → Terminal τ}

/-- A session as far as its surroundings are shown. -/
def shown (view : τ → σ) (x : RxSession S τ) : RxSession S σ := ⟨x.receiver, view x.surroundings, x.returns⟩

theorem shown_step (h : ∀ i, (terminals' i).Shows view (terminals i)) (hl : ∀ f s, view (lift f s) = f (view s))
    (x : RxSession S τ) (a : RxAction S σ) :
    (x.step terminals' (a.lifted lift)).shown view = (x.shown view).step terminals a := by
  cases a with
  | recv buffers count wait onePacket md =>
    simp only [shown, RxAction.lifted, step, recv_shown h]
    rfl
  | issue c =>
    simp only [shown, RxAction.lifted, step, Receiver.issue, issueFrom_shown h]
    rfl
  | elapse f =>
    simp only [shown, RxAction.lifted, step, hl]

/-- What the surroundings hold beside does not change a run. -/
theorem shown_run (h : ∀ i, (terminals' i).Shows view (terminals i)) (hl : ∀ f s, view (lift f s) = f (view s))
    (x : RxSession S τ) (as : List (RxAction S σ)) :
    (x.run terminals' (as.map (RxAction.lifted lift))).shown view = (x.shown view).run terminals as := by
  induction as generalizing x with
  | nil => rfl
  | cons a as ih =>
    have hs := ih (x.step terminals' (a.lifted lift))
    rw [shown_step h hl] at hs
    exact hs

end RxSession

/-! ## Frames taken -/

/-- The same action where frames are remembered. -/
def RxAction.recorded {S σ : Type} : RxAction S σ → RxAction S (Recorded σ)
  | .recv buffers count wait onePacket md => .recv buffers count wait onePacket md
  | .issue c => .issue c
  | .elapse f => .elapse fun s => { s with inner := f s.inner }

namespace RxSession

variable {S σ : Type} [HostSample S] (terminals : Nat → Terminal σ)

/-- The session where frames are remembered from now on. -/
def record (x : RxSession S σ) : RxSession S (Recorded σ) :=
  ⟨x.receiver, ⟨x.surroundings, x.receiver.channels.map fun _ => []⟩, x.returns⟩

def erase (x : RxSession S (Recorded σ)) : RxSession S σ := ⟨x.receiver, x.surroundings.inner, x.returns⟩

/-- A run of a session where frames are remembered. -/
def runRecorded (x : RxSession S σ) (as : List (RxAction S σ)) : RxSession S (Recorded σ) :=
  x.record.run (recording terminals) (as.map RxAction.recorded)

/-- The frames that a run of a session takes from a link. -/
def framesTaken (x : RxSession S σ) (as : List (RxAction S σ)) (i : Nat) : List Bytes :=
  (x.runRecorded terminals as).surroundings.taken[i]?.getD []

/-- Remembering frames does not change a run. -/
theorem erase_run (x : RxSession S (Recorded σ)) (as : List (RxAction S σ)) :
    (x.run (recording terminals) (as.map RxAction.recorded)).erase = x.erase.run terminals as := by
  have ha : RxAction.recorded (S := S) = RxAction.lifted fun f (s : Recorded σ) => { s with inner := f s.inner } := by
    funext a
    cases a <;> rfl
  rw [ha]
  exact shown_run (recording_shows terminals) (fun _ _ => rfl) x as

theorem erase_runRecorded (x : RxSession S σ) (as : List (RxAction S σ)) :
    (x.runRecorded terminals as).erase = x.run terminals as :=
  erase_run terminals x.record as

theorem runRecorded_concat (x : RxSession S σ) (as : List (RxAction S σ)) (a : RxAction S σ) :
    x.runRecorded terminals (as ++ [a]) = (x.runRecorded terminals as).step (recording terminals) a.recorded := by
  rw [runRecorded, List.map_append]
  exact run_concat ..

end RxSession

/-! ## Runs -/

section Runs

variable {S σ : Type} [HostSample S] (terminals : Nat → Terminal σ)

/-- A session has come to tracks with some property. -/
def Reaches (format : WireFormat) (rate : Float) (I : List (RxReturn S) → Option Condition → List Track → Prop)
    (x : RxSession S (Recorded σ)) : Prop :=
  x.receiver.format = format ∧ x.receiver.rate = rate ∧
    ∃ ts, Described (recordedLedger terminals) x ts ∧ I x.returns x.receiver.deferred ts

variable {terminals} {format : WireFormat} {rate : Float}
  {I : List (RxReturn S) → Option Condition → List Track → Prop}

/-- A property of what calls have returned and of the tracks that every call keeps of
which the action is allowed. -/
structure CallInvariant (ok : RxAction S σ → Prop) (format : WireFormat) (rate : Float)
    (I : List (RxReturn S) → Option Condition → List Track → Prop) : Prop where
  misuse : ∀ {rs kept ts} e buffers md, I rs kept ts → I (rs ++ [⟨.error e, buffers, md⟩]) kept ts
  call : ∀ {rs kept ts buffers count wait onePacket md rep ts' y}, ok (.recv buffers count wait onePacket md) →
    Call format rate count onePacket md kept ts rep ts' → Ready format 0 ts → y.Tells rep ts' → I rs kept ts →
    I (rs ++ [y]) rep.kept (ts'.map Track.turn)

theorem Reaches.step {ok : RxAction S σ → Prop} (hI : CallInvariant ok format rate I) {x : RxSession S (Recorded σ)}
    (h : Reaches terminals format rate I x) {a : RxAction S σ} (ha : ok a) :
    Reaches terminals format rate I (x.step (recording terminals) a.recorded) := by
  obtain ⟨rfl, rfl, ts, hd, hi⟩ := h
  cases a with
  | recv buffers count wait onePacket md =>
    rcases hd.recv buffers count wait onePacket md with ⟨e, he⟩ | ⟨rep, ts', st, s', y, he, hC, hr, hy, hT⟩
    · rw [RxAction.recorded, he]
      exact ⟨rfl, rfl, ts, hd.misuse e buffers md, hI.misuse e buffers md hi⟩
    · rw [RxAction.recorded, he]
      have hr₀ : Ready x.receiver.format 0 ts := ⟨hd.nonempty, hd.sound, fun t ht => by rw [hd.fresh t ht]; rfl⟩
      exact ⟨rfl, rfl, ts'.map Track.turn, hd.turn hC.earlier hr hy hT, hI.call ha hC hr₀ hy hi⟩
  | issue c =>
    obtain ⟨res, st, s', he, ht⟩ := issueFrom_keeps (recording terminals) (f := Recorded.taken)
      (fun _ _ _ => rfl) (fun _ _ _ => rfl) c x.receiver.channels.length 0 x.receiver x.surroundings
    rw [RxAction.recorded, RxSession.step, Receiver.issue, he]
    exact ⟨rfl, rfl, ts, ⟨hd.channels, hd.nonempty, hd.sound, hd.fresh, ⟨ht.trans hd.tells.1, hd.tells.2⟩,
      hd.returned⟩, hi⟩
  | elapse f =>
    exact ⟨rfl, rfl, ts, ⟨hd.channels, hd.nonempty, hd.sound, hd.fresh, hd.tells, hd.returned⟩, hi⟩

/-- What calls keep, a run keeps. -/
theorem Reaches.run {ok : RxAction S σ → Prop} (hI : CallInvariant ok format rate I) {x : RxSession S (Recorded σ)}
    (h : Reaches terminals format rate I x) (as : List (RxAction S σ)) (ha : ∀ a ∈ as, ok a) :
    Reaches terminals format rate I (x.run (recording terminals) (as.map RxAction.recorded)) := by
  induction as generalizing x with
  | nil => exact h
  | cons a as ih =>
    exact ih (h.step hI (ha a List.mem_cons_self)) fun b hb => ha b (List.mem_cons_of_mem _ hb)

/-! ## Runs of a new receiver -/

theorem Receiver.eq_of_new {sizes : List Nat} {packetSamples : Nat} {r : Receiver}
    (h : Receiver.new sizes format rate packetSamples = .ok r) :
    sizes ≠ [] ∧ r = { channels := sizes.map fun _ => {}, format, rate, packetSamples } := by
  unfold Receiver.new at h
  dsimp only at h
  split at h
  · cases h
  · next hs =>
    split at h
    · cases h
    · split at h
      · cases h
      · cases h
        exact ⟨by simpa using hs, rfl⟩

/-- The packets of a new receiver are not empty and fit into the frames. -/
theorem Receiver.fits_of_new {sizes : List Nat} {packetSamples : Nat} {r : Receiver}
    (h : Receiver.new sizes format rate packetSamples = .ok r) :
    0 < packetSamples ∧ ∀ size ∈ sizes, Header.size + packetSamples * format.sampleBytes ≤ size := by
  unfold Receiver.new at h
  dsimp only at h
  split at h
  · cases h
  · split at h
    · cases h
    · next hz =>
      cases hf : sizes.find? (· < Header.size + packetSamples * format.sampleBytes) with
      | some size => rw [hf] at h; cases h
      | none =>
        rw [List.find?_eq_none] at hf
        exact ⟨Nat.pos_of_ne_zero hz, fun size hs => by simpa using hf size hs⟩

/-- A new receiver starts from blank tracks. -/
theorem reaches_new {sizes : List Nat} {packetSamples : Nat} {r : Receiver}
    (h : Receiver.new sizes format rate packetSamples = .ok r) (s : σ) (hi : I [] none (sizes.map fun _ => {})) :
    Reaches terminals format rate I (RxSession.record ⟨r, s, []⟩) := by
  obtain ⟨hne, rfl⟩ := Receiver.eq_of_new h
  refine ⟨rfl, rfl, sizes.map fun _ => {}, ⟨?_, by simpa using hne, ?_, ?_, ⟨?_, ?_⟩, ?_⟩, hi⟩
  · simp [RxSession.record]
  · intro t ht
    obtain ⟨_, -, rfl⟩ := List.mem_map.1 ht
    exact Track.sound_blank
  · intro t ht
    obtain ⟨_, -, rfl⟩ := List.mem_map.1 ht
    rfl
  · simp [RxSession.record, Track.account]
  · intro a ha
    simp only [List.map_map, List.mem_map, Function.comp_apply] at ha
    obtain ⟨_, -, rfl⟩ := ha
    rfl
  · intro i t ht
    rw [List.getElem?_map, Option.map_eq_some_iff] at ht
    obtain ⟨_, -, rfl⟩ := ht
    rfl

/-- What the tracks say of a plain run. -/
theorem Described.plain {x : RxSession S σ} {as : List (RxAction S σ)} {ts : List Track}
    (h : Described (recordedLedger terminals) (x.runRecorded terminals as) ts) {i : Nat} {t : Track}
    (ht : ts[i]? = some t) :
    (x.run terminals as).returned i = t.total.map HostSample.ofRaw ∧ x.framesTaken terminals as i = t.taken ∧
      ((x.run terminals as).receiver.channels[i]?).bind (·.held) = t.channel.held := by
  have he := RxSession.erase_runRecorded terminals x as
  have hg : t.given = [] := h.fresh t (List.mem_of_getElem? ht)
  refine ⟨?_, ?_, ?_⟩
  · rw [← he, Track.total, hg, List.append_nil, ← h.returned i t ht]
    rfl
  · have hT : (x.runRecorded terminals as).surroundings.taken = (ts.map (·.account)).map (·.taken) := h.tells.1
    rw [RxSession.framesTaken, hT, List.getElem?_map, List.getElem?_map, ht]
    rfl
  · have hc : (x.run terminals as).receiver.channels = ts.map (·.channel) := by
      rw [← he]
      exact h.channels
    rw [hc, List.getElem?_map, ht]
    rfl

end Runs

/-- Terminals of links on which frames come as they are listed, and nothing else
happens. -/
def Terminal.scripted (i : Nat) : Terminal (List (List Bytes)) where
  receive _ s := match s[i]? with
    | some (f :: fs) => (some ⟨0, f, f.length⟩, s.set i fs)
    | _ => (none, s)
  recycle _ s := s
  acquire _ s := (none, s)
  submit _ s := s
  backlog s := (s[i]?.map List.length).getD 0

end RadioStream
