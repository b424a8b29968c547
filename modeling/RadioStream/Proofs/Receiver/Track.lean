import Mathlib.Data.List.Forall2
import RadioStream.Proofs.Packet
/-!
# Channels with their books

What a receiver does depends on what its links give it, and its links may be
anything. A `Ledger` relates the surroundings to an account for each link: the
frames it has given so far, the frame that was not let go yet, and the frames that
were sent, where one knows them. A `Track` is a channel together with its account
and with the samples it has handed out.

For each operation on the channels there is one on tracks. `fetchAll_spec`,
`dropWhere_spec` and `advanceAll_spec` say that the operation keeps the books;
everything else about a receiver is read off the tracks.
-/

namespace RadioStream

/-- What a link has given to its channel. -/
structure Account where
  taken : List Bytes := []
  /-- The frame that was received and not let go. -/
  out : Option Frame := none
  /-- All frames sent on the link, if that is known. -/
  sent : Option (List Bytes) := none

namespace Account

/-- The frame can be the next one to come in. -/
def Admits (a : Account) (frame : Bytes) : Prop := ∀ fs ∈ a.sent, a.taken ++ [frame] <+: fs

/-- There may be no frame to come in. -/
def Spent (a : Account) : Prop := ∀ fs ∈ a.sent, a.taken = fs

/-- The account after a frame comes in. -/
def receive (a : Account) (f : Frame) : Account := { a with taken := a.taken ++ [f.payload], out := some f }

/-- The account after the frame is let go. -/
def settle (a : Account) : Account := { a with out := none }

end Account

/-- A way to tell the accounts of links from their surroundings. -/
structure Ledger {σ : Type} (terminals : Nat → Terminal σ) where
  Tells : List Account → σ → Prop
  receive_some : ∀ {before after : List Account} {a : Account} {wait : Nat} {s s' : σ} {f : Frame},
    Tells (before ++ a :: after) s → a.out = none →
    (terminals before.length).receive wait s = (some f, s') →
    a.Admits f.payload ∧ Tells (before ++ a.receive f :: after) s'
  receive_none : ∀ {before after : List Account} {a : Account} {wait : Nat} {s s' : σ},
    Tells (before ++ a :: after) s → (terminals before.length).receive wait s = (none, s') →
    a.Spent ∧ Tells (before ++ a :: after) s'
  recycle : ∀ {before after : List Account} {a : Account} {s : σ} {f : Frame},
    Tells (before ++ a :: after) s → a.out = some f →
    Tells (before ++ a.settle :: after) ((terminals before.length).recycle f s)
  backlog : ∀ {before after : List Account} {a : Account} {s : σ}, Tells (before ++ a :: after) s →
    ∀ fs ∈ a.sent, fs.length ≤ a.taken.length + (terminals before.length).backlog s

/-- A channel with what has come in on it and gone out of it. -/
structure Track where
  channel : RxChannel := {}
  /-- The frames received so far. -/
  taken : List Bytes := []
  /-- All frames sent, if that is known. -/
  sent : Option (List Bytes) := none
  /-- The samples that earlier calls handed out. -/
  earlier : List (Iq Int16) := []
  /-- The samples that this call has handed out. -/
  given : List (Iq Int16) := []

namespace Track

/-- The account of the link. -/
def account (t : Track) : Account := ⟨t.taken, t.channel.held.map (·.frame), t.sent⟩

/-- The samples of the packet held that are still to be handed out. -/
def unread (format : WireFormat) (t : Track) : List (Iq Int16) :=
  match t.channel.held with
  | some h => h.unread format
  | none => []

/-- All samples handed out so far. -/
def total (t : Track) : List (Iq Int16) := t.earlier ++ t.given

/-- The track with a frame taken that leaves the channel as it was. -/
def pass (t : Track) (frame : Bytes) : Track := { t with taken := t.taken ++ [frame] }

/-- The track with the data packet of a frame held. -/
def hold (t : Track) (f : Frame) (h : Header) (n : Nat) : Track :=
  { t with taken := t.taken ++ [f.payload]
           channel := ⟨some { frame := f, header := h, samples := n }, some (h.sequence + 1)⟩ }

/-- The track without its packet if that meets a test. -/
def drop (test : Held → Bool) (t : Track) : Track :=
  if t.channel.held.any test then { t with channel := { t.channel with held := none } } else t

/-- The track with `n` more samples handed out. -/
def advance (format : WireFormat) (n : Nat) (t : Track) : Track :=
  match t.channel.held with
  | none => t
  | some h =>
    let h' := { h with offset := h.offset + n }
    { t with given := t.given ++ (h.unread format).take n
             channel := { t.channel with held := if h'.remaining = 0 then none else some h' } }

/-- The track at the begin of another call. -/
def turn (t : Track) : Track := { t with earlier := t.total, given := [] }

/-- The channel agrees with the frames taken: it holds the last data packet or
none, and expects the one that follows. -/
structure Sound (format : WireFormat) (t : Track) : Prop where
  expected : t.channel.expected = (packetsIn format t.taken).getLast?.map (·.header.sequence + 1)
  held : ∀ h ∈ t.channel.held, ∃ p, (packetsIn format t.taken).getLast? = some p ∧ h.Of format p

end Track

/-- The same channels later on. None has forgotten a frame. -/
def Grows : List Track → List Track → Prop := List.Forall₂ fun t t' => t.taken <+: t'.taken

/-- What bringing in a packet does to a track, with the condition met. -/
inductive Fetched (format : WireFormat) : Track → Option Condition → Track → Prop
  | kept {t : Track} : t.channel.held.isSome → Fetched format t none t
  | silence {t : Track} : t.channel.held = none → t.account.Spent → Fetched format t (some .silence) t
  | malformed {t : Track} {frame : Bytes} : t.channel.held = none → t.account.Admits frame →
      Incoming.ofFrame format frame = .malformed → Fetched format t (some .malformed) (t.pass frame)
  | status {t : Track} {frame : Bytes} {code : RxCode} {tick : Option UInt64} : t.channel.held = none →
      t.account.Admits frame → Incoming.ofFrame format frame = .status code tick →
      Fetched format t (some (.status code tick)) (t.pass frame)
  | data {t : Track} {f : Frame} {h : Header} {n : Nat} : t.channel.held = none →
      t.account.Admits f.payload → Incoming.ofFrame format f.payload = .data h n →
      Fetched format t (if t.channel.expected.all (· == h.sequence) then none else some .gap) (t.hold f h n)

/-- What bringing in a packet for each channel does, up to the first condition. -/
inductive FetchedAll (format : WireFormat) : List Track → Option Condition → List Track → Prop
  | nil : FetchedAll format [] none []
  | stop {t t' : Track} {ts : List Track} {k : Condition} : Fetched format t (some k) t' →
      FetchedAll format (t :: ts) (some k) (t' :: ts)
  | next {t t' : Track} {ts ts' : List Track} {k : Option Condition} : Fetched format t none t' →
      FetchedAll format ts k ts' → FetchedAll format (t :: ts) k (t' :: ts')

/-! ## The books are kept -/

section Books

variable {σ : Type} {terminals : Nat → Terminal σ} (L : Ledger terminals) {format : WireFormat}

theorem fetch_spec {before after : List Account} {t : Track} {wait : Nat} {s s' : σ} {k : Option Condition}
    {c : RxChannel} (hT : L.Tells (before ++ t.account :: after) s)
    (h : RxChannel.fetch (terminals before.length) format wait t.channel s = (k, c, s')) :
    ∃ t', Fetched format t k t' ∧ c = t'.channel ∧ L.Tells (before ++ t'.account :: after) s' := by
  unfold RxChannel.fetch at h
  split at h
  · next hh => cases h; exact ⟨t, .kept hh, rfl, hT⟩
  · next hh =>
    have hn : t.channel.held = none := by simpa using hh
    have ho : t.account.out = none := by simp [Track.account, hn]
    split at h
    · next hr =>
      obtain ⟨hs, hT₁⟩ := L.receive_none hT hr
      cases h
      exact ⟨t, .silence hn hs, rfl, hT₁⟩
    · next f s₁ hr =>
      obtain ⟨ha, hT₁⟩ := L.receive_some hT ho hr
      -- a frame that is no data packet goes home at once
      have hp : (t.account.receive f).settle = (t.pass f.payload).account := by
        simp [Account.receive, Account.settle, Track.pass, Track.account, hn]
      split at h
      · next hf => cases h; exact ⟨_, .malformed hn ha hf, rfl, hp ▸ L.recycle hT₁ rfl⟩
      · next hf => cases h; exact ⟨_, .status hn ha hf, rfl, hp ▸ L.recycle hT₁ rfl⟩
      · next hf => cases h; exact ⟨_, .data hn ha hf, rfl, hT₁⟩

theorem fetchAll_spec {before : List Account} {ts : List Track} {wait : Nat} {s s' : σ} {k : Option Condition}
    {cs : List RxChannel} (hT : L.Tells (before ++ ts.map (·.account)) s)
    (h : RxChannel.fetchAll terminals format wait before.length (ts.map (·.channel)) s = (k, cs, s')) :
    ∃ ts', FetchedAll format ts k ts' ∧ cs = ts'.map (·.channel) ∧
      L.Tells (before ++ ts'.map (·.account)) s' := by
  induction ts generalizing before s k cs s' with
  | nil => cases h; exact ⟨[], .nil, rfl, hT⟩
  | cons t ts ih =>
    simp only [List.map_cons, RxChannel.fetchAll] at h hT
    split at h
    · next k₁ c s₁ hf =>
      obtain ⟨t', ht, rfl, hT₁⟩ := fetch_spec L hT hf
      cases h
      exact ⟨t' :: ts, .stop ht, rfl, hT₁⟩
    · next c s₁ hf =>
      obtain ⟨t', ht, rfl, hT₁⟩ := fetch_spec L hT hf
      -- the account of this channel goes to those before, as the next one has a larger number
      rw [List.append_cons] at hT₁
      rw [show before.length + 1 = (before ++ [t'.account]).length by simp] at h
      obtain ⟨ts', hts, hcs, hT₂⟩ := ih hT₁ rfl
      cases h
      exact ⟨t' :: ts', .next ht hts, by rw [hcs, List.map_cons], by rwa [List.map_cons, List.append_cons]⟩

theorem letGo_spec {before after : List Account} {t : Track} {s : σ} (test : Held → Bool)
    (hT : L.Tells (before ++ t.account :: after) s) :
    (RxChannel.letGo (terminals before.length) test t.channel s).1 = (t.drop test).channel ∧
      L.Tells (before ++ (t.drop test).account :: after)
        (RxChannel.letGo (terminals before.length) test t.channel s).2 := by
  unfold RxChannel.letGo Track.drop
  cases hg : t.channel.held with
  | none => exact ⟨rfl, hT⟩
  | some g =>
    simp only [Option.any_some]
    by_cases hy : test g = true
    · rw [if_pos hy, if_pos hy]
      exact ⟨rfl, L.recycle hT (by rw [Track.account, hg]; rfl)⟩
    · rw [if_neg hy, if_neg hy]
      exact ⟨rfl, hT⟩

theorem dropWhere_spec {before : List Account} {ts : List Track} {s : σ} (test : Held → Bool)
    (hT : L.Tells (before ++ ts.map (·.account)) s) :
    (RxChannel.dropWhere terminals test before.length (ts.map (·.channel)) s).1 =
        (ts.map (Track.drop test)).map (·.channel) ∧
      L.Tells (before ++ (ts.map (Track.drop test)).map (·.account))
        (RxChannel.dropWhere terminals test before.length (ts.map (·.channel)) s).2 := by
  induction ts generalizing before s with
  | nil => exact ⟨rfl, hT⟩
  | cons t ts ih =>
    simp only [List.map_cons, RxChannel.dropWhere] at hT ⊢
    obtain ⟨hc, hT₁⟩ := letGo_spec L test hT
    rw [List.append_cons] at hT₁ ⊢
    obtain ⟨hcs, hT₂⟩ := ih hT₁
    rw [List.length_append, List.length_singleton] at hcs hT₂
    exact ⟨by rw [hc, hcs], hT₂⟩

theorem advance_spec {S : Type} [HostSample S] {before after : List Account} {t : Track} {s : σ}
    (position n : Nat) (b : List S) (hT : L.Tells (before ++ t.account :: after) s) :
    (RxChannel.advance (terminals before.length) format position n t.channel b s).1 =
        (t.advance format n).channel ∧
      (RxChannel.advance (terminals before.length) format position n t.channel b s).2.1 =
        splice b position (((t.unread format).take n).map HostSample.ofRaw) ∧
      L.Tells (before ++ (t.advance format n).account :: after)
        (RxChannel.advance (terminals before.length) format position n t.channel b s).2.2 := by
  unfold RxChannel.advance Track.advance Track.unread
  cases hg : t.channel.held with
  | none => exact ⟨rfl, by simp [splice], hT⟩
  | some g =>
    have ha : t.account = ⟨t.taken, some g.frame, t.sent⟩ := by rw [Track.account, hg]; rfl
    rw [ha] at hT
    -- a packet that is used up is let go
    by_cases hz : ({ g with offset := g.offset + n } : Held).remaining = 0
    · simp only [if_pos hz, true_and]
      exact L.recycle hT rfl
    · simp only [if_neg hz, true_and]
      exact hT

theorem advanceAll_spec {S : Type} [HostSample S] {before : List Account} {ts : List Track}
    {buffers : List (List S)} {s : σ} (position n : Nat) (hl : buffers.length = ts.length)
    (hT : L.Tells (before ++ ts.map (·.account)) s) :
    (RxChannel.advanceAll terminals format position n before.length (ts.map (·.channel)) buffers s).1 =
        (ts.map (Track.advance format n)).map (·.channel) ∧
      (RxChannel.advanceAll terminals format position n before.length (ts.map (·.channel)) buffers s).2.1 =
        List.zipWith (fun b t => splice b position (((t.unread format).take n).map HostSample.ofRaw))
          buffers ts ∧
      L.Tells (before ++ (ts.map (Track.advance format n)).map (·.account))
        (RxChannel.advanceAll terminals format position n before.length (ts.map (·.channel)) buffers s).2.2 := by
  induction ts generalizing before buffers s with
  | nil =>
    obtain rfl := List.length_eq_zero_iff.1 hl
    exact ⟨rfl, rfl, hT⟩
  | cons t ts ih =>
    obtain ⟨b, bs, rfl⟩ := List.exists_cons_of_length_eq_add_one hl
    simp only [List.map_cons, RxChannel.advanceAll, List.zipWith_cons_cons] at hT ⊢
    obtain ⟨hc, hb, hT₁⟩ := advance_spec L position n b hT
    rw [List.append_cons] at hT₁ ⊢
    obtain ⟨hcs, hbs, hT₂⟩ := ih (Nat.succ.inj hl) hT₁
    rw [List.length_append, List.length_singleton] at hcs hbs hT₂
    exact ⟨by rw [hc, hcs], by rw [hb, hbs], hT₂⟩

end Books

/-! ## Tracks stay sound -/

namespace Track

variable {format : WireFormat} {t t' : Track} {k : Option Condition}

theorem taken_drop (test : Held → Bool) (t : Track) : (t.drop test).taken = t.taken := by
  unfold drop; split <;> rfl

theorem sent_drop (test : Held → Bool) (t : Track) : (t.drop test).sent = t.sent := by
  unfold drop; split <;> rfl

theorem earlier_drop (test : Held → Bool) (t : Track) : (t.drop test).earlier = t.earlier := by
  unfold drop; split <;> rfl

theorem given_drop (test : Held → Bool) (t : Track) : (t.drop test).given = t.given := by
  unfold drop; split <;> rfl

theorem held_drop {test : Held → Bool} {h : Held} (hh : (t.drop test).channel.held = some h) :
    t.channel.held = some h ∧ test h = false := by
  unfold drop at hh
  split at hh
  · cases hh
  · next hn => rw [hh, Option.any_some] at hn; exact ⟨hh, by simpa using hn⟩

/-- Letting go by two tests, of which the second is met by all packets. -/
theorem map_drop_drop_true (test : Held → Bool) (ts : List Track) :
    (ts.map (drop test)).map (drop fun _ => true) = ts.map (drop fun _ => true) := by
  rw [List.map_map]
  refine List.map_congr_left fun t _ => ?_
  rw [Function.comp_apply]
  unfold drop
  cases hh : t.channel.held with
  | none => simp [hh]
  | some h => by_cases ht : test h = true <;> simp [hh, ht]

theorem taken_advance (n : Nat) (t : Track) : (t.advance format n).taken = t.taken := by
  unfold advance; split <;> rfl

theorem sent_advance (n : Nat) (t : Track) : (t.advance format n).sent = t.sent := by
  unfold advance; split <;> rfl

theorem earlier_advance (n : Nat) (t : Track) : (t.advance format n).earlier = t.earlier := by
  unfold advance; split <;> rfl

theorem given_advance (n : Nat) (t : Track) :
    (t.advance format n).given = t.given ++ (t.unread format).take n := by
  unfold advance unread
  cases t.channel.held with
  | none => simp
  | some h => rfl

theorem total_advance (n : Nat) (t : Track) :
    (t.advance format n).total = t.total ++ (t.unread format).take n := by
  rw [total, total, earlier_advance, given_advance, List.append_assoc]

/-- What is held after handing out samples is the same packet with a larger
offset, and not used up. -/
theorem held_advance {n : Nat} {h' : Held} (hh : (t.advance format n).channel.held = some h') :
    ∃ h, t.channel.held = some h ∧ h' = { h with offset := h.offset + n } ∧ h'.remaining ≠ 0 := by
  unfold advance at hh
  split at hh
  · next hn => rw [hn] at hh; cases hh
  · next h hs =>
    dsimp only at hh
    split at hh
    · cases hh
    · next hz => cases hh; exact ⟨h, hs, rfl, hz⟩

theorem Sound.unread_eq (hs : t.Sound format) {h : Held} (hh : t.channel.held = some h) :
    ∃ p, (packetsIn format t.taken).getLast? = some p ∧ h.Of format p ∧
      t.unread format = p.samples.drop h.offset := by
  obtain ⟨p, hp, ho⟩ := hs.held h hh
  exact ⟨p, hp, ho, by rw [unread, hh]; exact ho.unread⟩

theorem Sound.length_unread (hs : t.Sound format) {h : Held} (hh : t.channel.held = some h) :
    (t.unread format).length = h.remaining := by
  obtain ⟨p, -, ho⟩ := hs.held h hh
  rw [unread, hh]
  exact ho.length_unread

/-- A portion within the packet is handed out whole. -/
theorem Sound.length_given_advance (hs : t.Sound format) {n : Nat} {h : Held} (hh : t.channel.held = some h)
    (hn : n ≤ h.remaining) : (t.advance format n).given.length = t.given.length + n := by
  rw [given_advance, List.length_append, List.length_take, hs.length_unread hh, Nat.min_eq_left hn]

theorem Sound.drop (hs : t.Sound format) (test : Held → Bool) : (t.drop test).Sound format where
  expected := by rw [taken_drop, ← hs.expected]; unfold Track.drop; split <;> rfl
  held h hh := by rw [taken_drop]; exact hs.held h (held_drop hh).1

theorem Sound.advance (hs : t.Sound format) {n : Nat} (hn : ∀ h ∈ t.channel.held, n ≤ h.remaining) :
    (t.advance format n).Sound format where
  expected := by rw [taken_advance, ← hs.expected]; unfold Track.advance; split <;> rfl
  held h' hh := by
    obtain ⟨h, hg, rfl, -⟩ := held_advance hh
    obtain ⟨p, hp, ho⟩ := hs.held h hg
    exact ⟨p, by rw [taken_advance, hp], ho.advance (hn h hg)⟩

theorem sound_blank : ({} : Track).Sound format := ⟨rfl, by simp⟩

theorem Sound.turn (hs : t.Sound format) : t.turn.Sound format := ⟨hs.expected, hs.held⟩

/-- A frame without a data packet leaves the packets as they were. -/
theorem packetsIn_pass {frame : Bytes} (hf : DataPacket.ofFrame? format frame = none) (t : Track) :
    packetsIn format (t.pass frame).taken = packetsIn format t.taken := by
  simp [pass, packetsIn, hf]

theorem packetsIn_hold {f : Frame} {p : DataPacket} (hf : DataPacket.ofFrame? format f.payload = some p) (g : Header)
    (n : Nat) (t : Track) : packetsIn format (t.hold f g n).taken = packetsIn format t.taken ++ [p] := by
  simp [hold, packetsIn, hf]

theorem Sound.pass (hs : t.Sound format) {frame : Bytes} (hf : DataPacket.ofFrame? format frame = none) :
    (t.pass frame).Sound format := by
  have e := packetsIn_pass hf t
  exact ⟨by rw [e]; exact hs.expected, fun h hh => by rw [e]; exact hs.held h hh⟩

end Track

namespace Fetched

variable {format : WireFormat} {t t' : Track} {k : Option Condition}

theorem sound (hf : Fetched format t k t') (hs : t.Sound format) : t'.Sound format := by
  cases hf with
  | kept | silence => exact hs
  | malformed _ _ hi => exact hs.pass (DataPacket.ofFrame?_eq_none (by simp [hi]))
  | status _ _ hi => exact hs.pass (DataPacket.ofFrame?_eq_none (by simp [hi]))
  | @data f h n _ _ hi =>
    obtain ⟨p, hp, rfl, ho⟩ := Held.exists_of hi
    have e : (packetsIn format (t.hold f p.header n).taken).getLast? = some p := by
      rw [Track.packetsIn_hold hp, List.getLast?_concat]
    refine ⟨by rw [e]; rfl, fun g hg => ⟨p, e, ?_⟩⟩
    cases hg
    exact ho

theorem earlier (hf : Fetched format t k t') : t'.earlier = t.earlier := by
  cases hf <;> rfl

theorem given (hf : Fetched format t k t') : t'.given = t.given := by
  cases hf <;> rfl

theorem sent (hf : Fetched format t k t') : t'.sent = t.sent := by
  cases hf <;> rfl

theorem grows (hf : Fetched format t k t') : t.taken <+: t'.taken := by
  cases hf with
  | kept | silence => exact List.prefix_refl _
  | malformed | status | data => exact List.prefix_append _ _

theorem held (hf : Fetched format t none t') : t'.channel.held.isSome := by
  generalize hk : none = k at hf
  cases hf with
  | kept hh => exact hh
  | silence | malformed | status => cases hk
  | data => rfl

end Fetched

namespace FetchedAll

variable {format : WireFormat} {ts ts' : List Track} {k : Option Condition}

theorem length (hf : FetchedAll format ts k ts') : ts'.length = ts.length := by
  induction hf with
  | nil => rfl
  | stop => rfl
  | next _ _ ih => rw [List.length_cons, List.length_cons, ih]

/-- What bringing in a packet does not change of a track, bringing in packets does
not change of any. -/
theorem map_eq {α : Type} {f : Track → α} (hk : ∀ {t k t'}, Fetched format t k t' → f t' = f t)
    (hf : FetchedAll format ts k ts') : ts'.map f = ts.map f := by
  induction hf with
  | nil => rfl
  | stop h => rw [List.map_cons, List.map_cons, hk h]
  | next h _ ih => rw [List.map_cons, List.map_cons, hk h, ih]

/-- Each track stays as it was or brings in a packet. -/
theorem exists_mem (hf : FetchedAll format ts k ts') {t' : Track} (ht' : t' ∈ ts') :
    ∃ t ∈ ts, t' = t ∨ ∃ k, Fetched format t k t' := by
  induction hf with
  | nil => cases ht'
  | stop h₁ =>
    rcases List.mem_cons.1 ht' with rfl | ht'
    · exact ⟨_, List.mem_cons_self, .inr ⟨_, h₁⟩⟩
    · exact ⟨t', List.mem_cons_of_mem _ ht', .inl rfl⟩
  | next h₁ _ ih =>
    rcases List.mem_cons.1 ht' with rfl | ht'
    · exact ⟨_, List.mem_cons_self, .inr ⟨_, h₁⟩⟩
    · obtain ⟨t, ht, h⟩ := ih ht'
      exact ⟨t, List.mem_cons_of_mem _ ht, h⟩

/-- When no condition was met, every track holds a packet. -/
theorem held (hf : FetchedAll format ts none ts') {t : Track} (ht : t ∈ ts') : t.channel.held.isSome := by
  generalize hk : (none : Option Condition) = k at hf
  induction hf with
  | nil => cases ht
  | stop => cases hk
  | next h₁ _ ih =>
    rcases List.mem_cons.1 ht with rfl | ht
    · exact h₁.held
    · exact ih ht hk

/-- The condition met is that of one of the tracks. -/
theorem condition {c : Condition} (hf : FetchedAll format ts (some c) ts') :
    ∃ t ∈ ts, ∃ t' ∈ ts', Fetched format t (some c) t' := by
  generalize hk : some c = k at hf
  induction hf with
  | nil => cases hk
  | stop h₁ => cases hk; exact ⟨_, List.mem_cons_self, _, List.mem_cons_self, h₁⟩
  | next _ _ ih =>
    obtain ⟨t, ht, t', ht', h⟩ := ih hk
    exact ⟨t, List.mem_cons_of_mem _ ht, t', List.mem_cons_of_mem _ ht', h⟩

theorem grows (hf : FetchedAll format ts k ts') : Grows ts ts' := by
  induction hf with
  | nil => exact .nil
  | stop h => exact .cons h.grows (List.forall₂_same.2 fun _ _ => List.prefix_refl _)
  | next h _ ih => exact .cons h.grows ih

end FetchedAll

namespace Grows

theorem refl (ts : List Track) : Grows ts ts := List.forall₂_same.2 fun _ _ => List.prefix_refl _

theorem trans {ts₁ ts₂ ts₃ : List Track} (h : Grows ts₁ ts₂) (h' : Grows ts₂ ts₃) : Grows ts₁ ts₃ := by
  induction h generalizing ts₃ with
  | nil => exact h'
  | cons hp _ ih =>
    cases h' with
    | cons hq hr => exact .cons (hp.trans hq) (ih hr)

theorem map {f : Track → Track} (hf : ∀ t, (f t).taken = t.taken) (ts : List Track) : Grows ts (ts.map f) := by
  rw [Grows, List.forall₂_map_right_iff, List.forall₂_same]
  intro t _
  exact (hf t).symm ▸ List.prefix_rfl

theorem at_index {ts ts' : List Track} (h : Grows ts ts') {i : Nat} {t : Track} (ht : ts[i]? = some t) :
    ∃ t', ts'[i]? = some t' ∧ t.taken <+: t'.taken := by
  induction h generalizing i with
  | nil => cases ht
  | cons hp _ ih =>
    cases i with
    | zero => cases ht; exact ⟨_, rfl, hp⟩
    | succ i => exact ih ht

/-- Frames that were taken later do not matter for earlier ones. -/
theorem back {P : List Bytes → Prop} (hP : ∀ {fs gs}, fs <+: gs → P gs → P fs) {ts ts' : List Track}
    (h : Grows ts ts') (hp : ∀ t ∈ ts', P t.taken) : ∀ t ∈ ts, P t.taken := by
  intro t ht
  obtain ⟨i, hi⟩ := List.mem_iff_getElem?.1 ht
  obtain ⟨t', ht', hg⟩ := h.at_index hi
  exact hP hg (hp t' (List.mem_of_getElem? ht'))

end Grows

end RadioStream
