import RadioStream.Proofs.Lists
import RadioStream.Proofs.Receiver.Track
import RadioStream.Receiver.Basic
/-!
# The steps of a receiver

A receiver aligns its channels in small steps: it brings in packets, lets go of
those that are behind, and gives up when the channels do not come to one tick.
`Step` lists them with their guards, `Path` is a sequence of them with the
conditions met on the way. Then it hands out a portion of samples, as many as all
packets have.

`align_spec` and `consume_spec` say what the two operations do to the tracks. An
invariant of the tracks is proved once for each kind of step.
-/

namespace RadioStream

/-- Every channel holds a packet. -/
def AllHeld (ts : List Track) : Prop := ∀ t ∈ ts, t.channel.held.isSome

/-- The tick to align by, where the packets held have one. -/
def alignTick (ts : List Track) : Option Nat := Receiver.newestTick (ts.map (·.channel))

/-- Every channel holds a packet, and no packet is behind. -/
structure Aligned (ts : List Track) : Prop where
  held : AllHeld ts
  even : ∀ newest, alignTick ts = some newest → ∀ t ∈ ts, ∀ h ∈ t.channel.held, h.tick? = some newest

/-- Every channel holds a packet, and some packet is behind. -/
structure Misaligned (newest : Nat) (ts : List Track) : Prop where
  held : AllHeld ts
  tick : alignTick ts = some newest
  uneven : ∃ t ∈ ts, ∃ h ∈ t.channel.held, h.behind newest = true

/-- The packet that the first channel holds. -/
def leading (ts : List Track) : Option Held := ts.head?.bind (·.channel.held)

theorem exists_leading {ts : List Track} {lead : Held} (h : leading ts = some lead) :
    ∃ t ∈ ts, t.channel.held = some lead := by
  rw [leading, Option.bind_eq_some_iff] at h
  obtain ⟨t, ht, hh⟩ := h
  exact ⟨t, List.mem_of_head? ht, hh⟩

/-- Samples can be handed out from every packet held. -/
def Room (n : Nat) (ts : List Track) : Prop := ∀ t ∈ ts, ∀ h ∈ t.channel.held, n ≤ h.remaining

/-- A portion of at most `most` samples from the packets held: as many as there
are. -/
structure Portion.Of (format : WireFormat) (most : Nat) (ts : List Track) (p : Portion) : Prop where
  lead : ∃ h, leading ts = some h ∧ p.header = h.header ∧ p.offset = h.offset
  room : Room p.count ts
  count_le : p.count ≤ most
  least : p.count < most → ∃ t ∈ ts, ∃ h ∈ t.channel.held, h.remaining = p.count
  exhausted : p.exhausted = (ts.map (Track.advance format p.count)).all (·.channel.held.isNone)

/-- What a receiver does to its tracks in one step, with the condition met. -/
inductive Step (format : WireFormat) : List Track → Option Condition → List Track → Prop
  /-- Packets are brought in. -/
  | fetch {ts ts' : List Track} {k : Option Condition} : FetchedAll format ts k ts' → Step format ts k ts'
  /-- Packets that are behind are let go. -/
  | drop {ts : List Track} {newest : Nat} : Misaligned newest ts →
      Step format ts none (ts.map (Track.drop (Held.behind newest)))
  /-- The rounds are used up, and all packets are let go. -/
  | giveUp {ts : List Track} {newest : Nat} : Misaligned newest ts →
      Step format ts (some .misaligned) (ts.map (Track.drop fun _ => true))

/-- A sequence of steps, with the conditions met. -/
inductive Path (format : WireFormat) : List Track → List Condition → List Track → Prop
  | nil {ts : List Track} : Path format ts [] ts
  | cons {ts ts₁ ts₂ : List Track} {k : Option Condition} {ks : List Condition} :
      Step format ts k ts₁ → Path format ts₁ ks ts₂ → Path format ts (k.toList ++ ks) ts₂

namespace Path

variable {format : WireFormat} {ts ts₁ : List Track} {ks : List Condition}

theorem single {k : Option Condition} (h : Step format ts k ts₁) : Path format ts k.toList ts₁ := by
  simpa using Path.cons h .nil

/-- What every step keeps, a path keeps. -/
theorem keeps {I : List Track → Prop} (hI : ∀ {ts k ts'}, Step format ts k ts' → I ts → I ts')
    (h : Path format ts ks ts₁) (hi : I ts) : I ts₁ := by
  induction h with
  | nil => exact hi
  | cons hs _ ih => exact ih (hI hs hi)

end Path

/-! ## What steps keep -/

namespace Step

variable {format : WireFormat} {ts ts' : List Track} {k : Option Condition}

theorem length (h : Step format ts k ts') : ts'.length = ts.length := by
  cases h with
  | fetch hf => exact hf.length
  | drop | giveUp => exact List.length_map _

theorem ne_nil (h : Step format ts k ts') (hne : ts ≠ []) : ts' ≠ [] := by
  rw [← List.length_pos_iff, h.length]
  exact List.length_pos_iff.2 hne

theorem map_eq {α : Type} {f : Track → α} (hfetch : ∀ {t k t'}, Fetched format t k t' → f t' = f t)
    (hdrop : ∀ test t, f (t.drop test) = f t) (h : Step format ts k ts') : ts'.map f = ts.map f := by
  cases h with
  | fetch hf => exact hf.map_eq hfetch
  | drop | giveUp =>
    rw [List.map_map]
    exact List.map_congr_left fun t _ => hdrop _ t

/-- No frame taken is forgotten. -/
theorem grows (h : Step format ts k ts') : Grows ts ts' := by
  cases h with
  | fetch hf => exact hf.grows
  | drop | giveUp => exact .map (Track.taken_drop _) ts

theorem sound (h : Step format ts k ts') (hs : ∀ t ∈ ts, t.Sound format) : ∀ t ∈ ts', t.Sound format := by
  intro t' ht'
  cases h with
  | fetch hf =>
    rcases hf.exists_mem ht' with ⟨t, ht, rfl | ⟨k, hk⟩⟩
    · exact hs t' ht
    · exact hk.sound (hs t ht)
  | drop | giveUp =>
    obtain ⟨t, ht, rfl⟩ := List.mem_map.1 ht'
    exact (hs t ht).drop _

end Step

theorem Path.length {format : WireFormat} {ts ts' : List Track} {ks : List Condition}
    (h : Path format ts ks ts') : ts'.length = ts.length :=
  h.keeps (I := fun us => us.length = ts.length) (fun hs hi => hs.length.trans hi) rfl

theorem Path.ne_nil {format : WireFormat} {ts ts' : List Track} {ks : List Condition}
    (h : Path format ts ks ts') (hne : ts ≠ []) : ts' ≠ [] :=
  h.keeps (I := (· ≠ [])) (fun hs hi => hs.ne_nil hi) hne

theorem Path.map_eq {α : Type} {f : Track → α} {format : WireFormat} {ts ts' : List Track} {ks : List Condition}
    (hfetch : ∀ {t k t'}, Fetched format t k t' → f t' = f t) (hdrop : ∀ test t, f (t.drop test) = f t)
    (h : Path format ts ks ts') : ts'.map f = ts.map f :=
  h.keeps (I := fun us => us.map f = ts.map f) (fun hs hi => (hs.map_eq hfetch hdrop).trans hi) rfl

theorem Path.given {format : WireFormat} {ts ts' : List Track} {ks : List Condition}
    (h : Path format ts ks ts') : ts'.map (·.given) = ts.map (·.given) :=
  h.map_eq Fetched.given Track.given_drop

theorem Path.sound {format : WireFormat} {ts ts' : List Track} {ks : List Condition}
    (h : Path format ts ks ts') (hs : ∀ t ∈ ts, t.Sound format) : ∀ t ∈ ts', t.Sound format :=
  h.keeps (fun hs hi => hs.sound hi) hs

theorem Path.grows {format : WireFormat} {ts ts' : List Track} {ks : List Condition}
    (h : Path format ts ks ts') : Grows ts ts' :=
  h.keeps (I := Grows ts) (fun hs hi => hi.trans hs.grows) (.refl ts)

/-- A property of tracks that steps keep, as long as the frames taken have a property
that goes over to prefixes. Conditions are then of a certain kind. -/
structure StepInvariant (format : WireFormat) (P : List Bytes → Prop) (J : List Track → Prop) (Q : Condition → Prop) :
    Prop where
  closed : ∀ {fs gs}, fs <+: gs → P gs → P fs
  step : ∀ {ts k ts'}, Step format ts k ts' → (∀ t ∈ ts', P t.taken) → J ts → J ts' ∧ ∀ c ∈ k, Q c

/-- One that handing out samples keeps as well. -/
structure Invariant (format : WireFormat) (P : List Bytes → Prop) (J : List Track → Prop) (Q : Condition → Prop) :
    Prop extends StepInvariant format P J Q where
  advance : ∀ {ts n}, Aligned ts → Room n ts → (∀ t ∈ ts, P t.taken) → J ts →
    J (ts.map (Track.advance format n))

namespace StepInvariant

variable {format : WireFormat} {P : List Bytes → Prop} {J : List Track → Prop} {Q : Condition → Prop}
  {ts ts' : List Track}

theorem back (hI : StepInvariant format P J Q) (hg : Grows ts ts') (hp : ∀ t ∈ ts', P t.taken) :
    ∀ t ∈ ts, P t.taken :=
  hg.back hI.closed hp

theorem path (hI : StepInvariant format P J Q) {ks : List Condition} (h : Path format ts ks ts')
    (hp : ∀ t ∈ ts', P t.taken) (hj : J ts) : J ts' ∧ ∀ c ∈ ks, Q c := by
  induction h with
  | nil => exact ⟨hj, by simp⟩
  | @cons ts ts₁ ts₂ k ks hs hr ih =>
    obtain ⟨h₁, hk⟩ := hI.step hs (hI.back hr.grows hp) hj
    obtain ⟨h₂, hks⟩ := ih hp h₁
    refine ⟨h₂, fun c hc => ?_⟩
    rcases List.mem_append.1 hc with hc | hc
    · exact hk c (by simpa using hc)
    · exact hks c hc

end StepInvariant

/-! ## Alignment -/

section Alignment

variable {σ : Type} {terminals : Nat → Terminal σ} (L : Ledger terminals) {format : WireFormat}

theorem fetchAll_first {wait : Nat} {ts : List Track} {s s' : σ} {k : Option Condition} {cs : List RxChannel}
    (hT : L.Tells (ts.map (·.account)) s)
    (h : RxChannel.fetchAll terminals format wait 0 (ts.map (·.channel)) s = (k, cs, s')) :
    ∃ ts', FetchedAll format ts k ts' ∧ cs = ts'.map (·.channel) ∧ L.Tells (ts'.map (·.account)) s' := by
  rw [← List.nil_append (ts.map (·.account))] at hT
  exact fetchAll_spec L hT h

theorem drop_first {ts : List Track} {s : σ} (test : Held → Bool) (hT : L.Tells (ts.map (·.account)) s) :
    ∃ s', RxChannel.dropWhere terminals test 0 (ts.map (·.channel)) s =
        ((ts.map (Track.drop test)).map (·.channel), s') ∧
      L.Tells ((ts.map (Track.drop test)).map (·.account)) s' := by
  rw [← List.nil_append (ts.map (·.account))] at hT
  obtain ⟨hc, hT'⟩ := dropWhere_spec L test hT
  exact ⟨_, Prod.ext hc rfl, hT'⟩

theorem any_behind_iff {ts : List Track} {newest : Nat} :
    ((ts.map (·.channel)).any fun c => c.held.any (Held.behind newest)) = true ↔
      ∃ t ∈ ts, ∃ h ∈ t.channel.held, h.behind newest = true := by
  simp [List.any_eq_true, Option.any_eq_true]

/-- Packets of which none is behind are aligned. -/
theorem Aligned.of_tick {ts : List Track} {newest : Nat} (hh : AllHeld ts) (hn : alignTick ts = some newest)
    (hb : ¬∃ t ∈ ts, ∃ h ∈ t.channel.held, h.behind newest = true) : Aligned ts where
  held := hh
  even x hx t ht h hm := by
    rw [hn] at hx
    cases hx
    by_contra hne
    exact hb ⟨t, ht, h, hm, by simpa [Held.behind] using hne⟩

/-- One round ends the alignment, or lets go of the packets that are behind. -/
theorem round_spec {wait rounds : Nat} {ts : List Track} {s s' : σ} {k : Option Condition}
    {cs : List RxChannel} (hT : L.Tells (ts.map (·.account)) s)
    (h : Receiver.alignRounds terminals format wait (rounds + 1) (ts.map (·.channel)) s = (k, cs, s')) :
    (∃ ts', FetchedAll format ts k ts' ∧ cs = ts'.map (·.channel) ∧ L.Tells (ts'.map (·.account)) s' ∧
      (k = none → Aligned ts')) ∨
    ∃ ts₁ newest s₁, FetchedAll format ts none ts₁ ∧ Misaligned newest ts₁ ∧
      L.Tells ((ts₁.map (Track.drop (Held.behind newest))).map (·.account)) s₁ ∧
      Receiver.alignRounds terminals format wait rounds
        ((ts₁.map (Track.drop (Held.behind newest))).map (·.channel)) s₁ = (k, cs, s') := by
  rw [Receiver.alignRounds] at h
  split at h
  · next c cs₁ s₁ hr =>
    obtain ⟨ts₁, hf, rfl, hT₁⟩ := fetchAll_first L hT hr
    cases h
    exact .inl ⟨ts₁, hf, rfl, hT₁, by simp⟩
  · next cs₁ s₁ hr =>
    obtain ⟨ts₁, hf, rfl, hT₁⟩ := fetchAll_first L hT hr
    have hh : AllHeld ts₁ := fun t ht => hf.held ht
    split at h
    · next hn =>
      cases h
      refine .inl ⟨ts₁, hf, rfl, hT₁, fun _ => ⟨hh, fun newest he => ?_⟩⟩
      rw [alignTick, hn] at he
      cases he
    · next newest hn =>
      split at h
      · next hb =>
        obtain ⟨s₂, hd, hT₂⟩ := drop_first L (Held.behind newest) hT₁
        rw [hd] at h
        exact .inr ⟨ts₁, newest, s₂, hf, ⟨hh, hn, any_behind_iff.1 hb⟩, hT₂, h⟩
      · next hb =>
        cases h
        rw [any_behind_iff] at hb
        exact .inl ⟨ts₁, hf, rfl, hT₁, fun _ => .of_tick hh hn hb⟩

theorem alignRounds_spec {wait : Nat} (rounds : Nat) {ts : List Track} {s s' : σ} {k : Option Condition}
    {cs : List RxChannel} (hT : L.Tells (ts.map (·.account)) s)
    (h : Receiver.alignRounds terminals format wait (rounds + 1) (ts.map (·.channel)) s = (k, cs, s')) :
    ∃ ts', Path format ts k.toList ts' ∧ cs = ts'.map (·.channel) ∧ L.Tells (ts'.map (·.account)) s' ∧
      (k = none → Aligned ts') := by
  induction rounds generalizing ts s with
  | zero =>
    rcases round_spec L hT h with ⟨ts', hf, hc, hT', ha⟩ | ⟨ts₁, newest, s₁, hf, hm, hT₁, h₁⟩
    · exact ⟨ts', .single (.fetch hf), hc, hT', ha⟩
    · -- the last round lets go of the packets behind, and then of all others
      obtain ⟨s₂, hd, hT₂⟩ := drop_first L (fun _ => true) hT₁
      rw [Track.map_drop_drop_true] at hd hT₂
      rw [Receiver.alignRounds, hd] at h₁
      cases h₁
      exact ⟨_, .cons (.fetch hf) (.single (.giveUp hm)), rfl, hT₂, by simp⟩
  | succ rounds ih =>
    rcases round_spec L hT h with ⟨ts', hf, hc, hT', ha⟩ | ⟨ts₁, newest, s₁, hf, hm, hT₁, h₁⟩
    · exact ⟨ts', .single (.fetch hf), hc, hT', ha⟩
    · obtain ⟨ts', hp, hc, hT', ha⟩ := ih hT₁ h₁
      exact ⟨ts', .cons (.fetch hf) (.cons (.drop hm) hp), hc, hT', ha⟩

theorem align_spec (wait : Nat) {r : Receiver} {ts : List Track} {s : σ} (hr : r.channels = ts.map (·.channel))
    (hne : ts ≠ []) (hT : L.Tells (ts.map (·.account)) s) :
    ∃ k ts' s', r.align terminals wait s =
        (k, { r with channels := ts'.map (·.channel), state := k.elim r.state r.state.after }, s') ∧
      Path r.format ts k.toList ts' ∧ L.Tells (ts'.map (·.account)) s' ∧ (k = none → Aligned ts') := by
  obtain ⟨rounds, hn⟩ := Receiver.exists_rounds (List.length_pos_of_ne_nil hne)
  unfold Receiver.align
  rw [hr, List.length_map, hn]
  cases ha : Receiver.alignRounds terminals r.format wait (rounds + 1) (ts.map (·.channel)) s with
  | mk k rest =>
    obtain ⟨cs, s'⟩ := rest
    obtain ⟨ts', hpath, rfl, hT', hal⟩ := alignRounds_spec L rounds hT ha
    exact ⟨k, ts', s', by dsimp only; rw [ha]; cases k <;> rfl, hpath, hT', hal⟩

end Alignment

/-! ## Handing out samples -/

/-- Every packet has the common remainder, and one has no more. -/
theorem commonRemaining_spec {ts : List Track} (hh : AllHeld ts) (hne : ts ≠ []) :
    Room (Receiver.commonRemaining (ts.map (·.channel))) ts ∧
      ∃ t ∈ ts, ∃ h ∈ t.channel.held, h.remaining = Receiver.commonRemaining (ts.map (·.channel)) := by
  unfold Receiver.commonRemaining
  generalize hl : ((ts.map (·.channel)).filterMap (·.held)).map Held.remaining = ns
  have hmem : ∀ n, n ∈ ns ↔ ∃ t ∈ ts, ∃ h ∈ t.channel.held, h.remaining = n := by
    intro n
    simp only [← hl, List.mem_map, List.mem_filterMap]
    constructor
    · rintro ⟨h, ⟨c, ⟨t, ht, rfl⟩, hg⟩, rfl⟩
      exact ⟨t, ht, h, hg, rfl⟩
    · rintro ⟨t, ht, h, hg, rfl⟩
      exact ⟨h, ⟨_, ⟨t, ht, rfl⟩, hg⟩, rfl⟩
  cases hm : ns.min? with
  | none =>
    -- some channel holds a packet, so there is a least remainder
    obtain ⟨t, ht⟩ := List.exists_mem_of_ne_nil ts hne
    obtain ⟨h, hg⟩ := Option.isSome_iff_exists.1 (hh t ht)
    have := (hmem h.remaining).2 ⟨t, ht, h, hg, rfl⟩
    rw [List.min?_eq_none_iff.1 hm] at this
    cases this
  | some n =>
    obtain ⟨hn, hle⟩ := List.min?_eq_some_iff.1 hm
    exact ⟨fun t ht h hg => hle _ ((hmem _).2 ⟨t, ht, h, hg, rfl⟩), (hmem n).1 hn⟩

section Consumption

variable {σ : Type} {terminals : Nat → Terminal σ} (L : Ledger terminals) {S : Type} [HostSample S]

theorem consume_spec (position most : Nat) {r : Receiver} {ts : List Track} {buffers : List (List S)} {s : σ}
    (hr : r.channels = ts.map (·.channel)) (hh : AllHeld ts) (hne : ts ≠ []) (hl : buffers.length = ts.length)
    (hT : L.Tells (ts.map (·.account)) s) :
    ∃ p s', r.consume terminals position most buffers s =
        (p, { r with channels := (ts.map (Track.advance r.format p.count)).map (·.channel) },
          List.zipWith (fun b t => splice b position (((t.unread r.format).take p.count).map HostSample.ofRaw))
            buffers ts, s') ∧
      p.Of r.format most ts ∧ L.Tells ((ts.map (Track.advance r.format p.count)).map (·.account)) s' := by
  obtain ⟨hroom, hleast⟩ := commonRemaining_spec hh hne
  generalize hc : Receiver.commonRemaining (ts.map (·.channel)) = c at hroom hleast
  obtain ⟨t, us, rfl⟩ := List.exists_cons_of_ne_nil hne
  obtain ⟨lead, hlead⟩ := Option.isSome_iff_exists.1 (hh t List.mem_cons_self)
  have hr' : r.leading? = some lead := by rw [Receiver.leading?, hr]; exact hlead
  rw [← List.nil_append ((t :: us).map (·.account))] at hT
  obtain ⟨hcs, hbs, hT'⟩ := advanceAll_spec L position (min c most) hl hT
  cases ha : RxChannel.advanceAll terminals r.format position (min c most) 0 ((t :: us).map (·.channel))
    buffers s with
  | mk cs rest =>
    obtain ⟨bs, s'⟩ := rest
    rw [List.length_nil, ha] at hcs hbs hT'
    obtain rfl : cs = _ := hcs
    obtain rfl : bs = _ := hbs
    refine ⟨⟨lead.header, lead.offset, min c most,
      ((t :: us).map (Track.advance r.format (min c most))).all (·.channel.held.isNone)⟩, s', ?_, ?_, hT'⟩
    · unfold Receiver.consume
      rw [hr']
      dsimp only
      rw [hr, hc, ha]
      dsimp only
      rw [List.all_map]
      rfl
    · refine ⟨⟨lead, hlead, rfl, rfl⟩, fun u hu h hg => ?_, Nat.min_le_right _ _, fun hn => ?_, rfl⟩
      · exact le_trans (Nat.min_le_left _ _) (hroom u hu h hg)
      · dsimp only at hn ⊢
        rw [Nat.min_eq_left (by omega)]
        exact hleast

end Consumption

/-! ## Ticks -/

/-- No packet is past the newest tick, and one is there. -/
theorem newestTick_spec {cs : List RxChannel} {newest : Nat} (hne : cs ≠ [])
    (h : Receiver.newestTick cs = some newest) :
    (∃ c ∈ cs, c.held.bind Held.tick? = some newest) ∧
      ∀ c ∈ cs, ∃ tick ≤ newest, c.held.bind Held.tick? = some tick := by
  rw [Receiver.newestTick, Option.map_eq_some_iff] at h
  obtain ⟨ticks, hm, rfl⟩ := h
  obtain ⟨hto, hfrom⟩ := mem_of_mapM hm
  obtain ⟨-, hle, hmem⟩ := le_foldl_max 0 ticks
  have hall : ∀ c ∈ cs, ∃ tick ≤ ticks.foldl max 0, c.held.bind Held.tick? = some tick := by
    intro c hc
    obtain ⟨tick, ht, he⟩ := hto c hc
    exact ⟨tick, hle tick ht, he⟩
  refine ⟨?_, hall⟩
  rcases hmem with hz | hmem
  · -- nothing is past tick zero, so every packet is there
    obtain ⟨c, hc⟩ := List.exists_mem_of_ne_nil cs hne
    obtain ⟨tick, ht, he⟩ := hall c hc
    exact ⟨c, hc, by rw [he, hz]; congr 1; omega⟩
  · obtain ⟨c, hc, he⟩ := hfrom _ hmem
    exact ⟨c, hc, he⟩

/-- Packets that all have a time have a newest tick. -/
theorem exists_newestTick {cs : List RxChannel} (h : ∀ c ∈ cs, (c.held.bind Held.tick?).isSome) :
    ∃ x, Receiver.newestTick cs = some x := by
  have hm : cs.mapM (fun c : RxChannel => c.held.bind Held.tick?) =
      some (cs.map fun c => (c.held.bind Held.tick?).getD 0) :=
    mapM_eq_some_map fun c hc => by
      obtain ⟨x, hx⟩ := Option.isSome_iff_exists.1 (h c hc)
      rw [hx, Option.getD_some]
  exact ⟨_, by rw [Receiver.newestTick, hm, Option.map_some]⟩

/-- The tick that all packets share is the newest. -/
theorem newestTick_eq_some {cs : List RxChannel} {x : Nat} (hne : cs ≠ [])
    (h : ∀ c ∈ cs, c.held.bind Held.tick? = some x) : Receiver.newestTick cs = some x := by
  obtain ⟨newest, hn⟩ := exists_newestTick fun c hc => by rw [h c hc, Option.isSome_some]
  obtain ⟨⟨c, hc, he⟩, -⟩ := newestTick_spec hne hn
  rw [h c hc] at he
  rw [hn, he]

/-- The tick of the next sample of a track. -/
def Track.tick? (t : Track) : Option Nat := t.channel.held.bind Held.tick?

/-- Aligned packets that all have a time are at one tick. -/
theorem Aligned.tick {ts : List Track} (ha : Aligned ts) (ht : ∀ t ∈ ts, t.tick?.isSome) :
    ∃ x, ∀ t ∈ ts, t.tick? = some x := by
  have hc : ∀ c ∈ ts.map (·.channel), (c.held.bind Held.tick?).isSome := by simpa [Track.tick?] using ht
  obtain ⟨x, hx⟩ := exists_newestTick hc
  refine ⟨x, fun t hm => ?_⟩
  obtain ⟨h, hh⟩ := Option.isSome_iff_exists.1 (ha.held t hm)
  rw [Track.tick?, hh, Option.bind_some]
  exact ha.even x hx t hm h hh

/-- Packets at one tick, or all without one, are not misaligned. -/
theorem Misaligned.uneven_ticks {ts : List Track} {newest : Nat} (hm : Misaligned newest ts) :
    ¬∃ x, ∀ t ∈ ts, t.tick? = x := by
  rintro ⟨x, hx⟩
  obtain ⟨t, ht, h, hh, hb⟩ := hm.uneven
  have ha : h.tick? = x := by rw [← hx t ht, Track.tick?, hh, Option.bind_some]
  obtain ⟨c, cs, hcs⟩ := List.exists_cons_of_ne_nil (l := ts.map (·.channel))
    (by simpa using List.ne_nil_of_mem ht)
  have hc : ∀ d ∈ c :: cs, d.held.bind Held.tick? = x := by
    rw [← hcs]
    simpa [Track.tick?] using hx
  have hn := hm.tick
  rw [alignTick, hcs] at hn
  -- without a tick there is no newest one, and with one it is that of the packet behind
  cases x with
  | none => simp [Receiver.newestTick, hc c List.mem_cons_self] at hn
  | some x =>
    rw [newestTick_eq_some (by simp) hc] at hn
    cases hn
    simp [Held.behind, ha] at hb

/-- Packets at one tick are let go of by no step. -/
theorem Step.fetched_of_even {format : WireFormat} {ts ts' : List Track} {k : Option Condition}
    (hs : Step format ts k ts') (heven : AllHeld ts → ∃ x, ∀ t ∈ ts, t.tick? = x) : FetchedAll format ts k ts' := by
  cases hs with
  | fetch hf => exact hf
  | drop hm | giveUp hm => exact absurd (heven hm.held) hm.uneven_ticks

/-- One packet cannot be behind itself. -/
theorem Step.single {format : WireFormat} {t : Track} {ts' : List Track} {k : Option Condition}
    (hs : Step format [t] k ts') : ∃ c t', ts' = [t'] ∧ Fetched format t c t' := by
  cases hs.fetched_of_even fun _ => ⟨t.tick?, by simp⟩ with
  | stop hf => exact ⟨_, _, rfl, hf⟩
  | next hf hr =>
    cases hr
    exact ⟨_, _, rfl, hf⟩

end RadioStream
