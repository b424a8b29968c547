import RadioStream.Proofs.Receiver.Fragments
/-!
# A burst over several calls

Calls read the stream of one channel from one place to another (`Recited`), each the slices
that it takes. If what lies between the two places is one burst, then the calls return its
samples, the first one that returns any says when the burst starts, and the last one, and
no other, says that it ends (`Recited.whole`).
-/

namespace RadioStream

/-- The call returns samples. -/
def RxReturn.delivers {S : Type} (y : RxReturn S) : Bool :=
  match y.outcome with
  | .ok n => 0 < n
  | .error _ => false

/-- Calls return a burst of samples from a time on: the first of those that return any says
that it starts then, and the last one that it ends. -/
structure Whole {S : Type} (xs : List S) (time : Instant) (rs : List (RxReturn S)) : Prop where
  samples : rs.flatMap (·.samples 0) = xs
  first : ∃ y ∈ (rs.filter RxReturn.delivers).head?,
    y.metadata.startOfBurst = true ∧ y.metadata.hasTime = true ∧ y.metadata.time = time
  last : ∃ y ∈ (rs.filter RxReturn.delivers).getLast?, y.endsBurst = true
  /-- No other call says that the burst ends. -/
  once : rs.countP RxReturn.endsBurst = 1

/-! ## Places in a stream of packets with samples -/

/-- From a place on no packet is empty. -/
def Cursor.Filled (ps : List DataPacket) (a : Cursor) : Prop :=
  ∀ k ≥ a.packets, ∀ p, ps[k]? = some p → 0 < p.samples.length

/-- At a place there is a sample next, if there is a packet. -/
def Cursor.Within (ps : List DataPacket) (a : Cursor) : Prop :=
  ∀ p ∈ ps[a.packets]?, a.offset < p.samples.length

namespace Reads

variable {ps : List DataPacket} {a b : Cursor} {cut : List Slice}

theorem packets_le (h : Reads ps a cut b) : a.packets ≤ b.packets := by
  induction h with
  | done | within => exact Nat.le_refl _
  | through _ _ _ ih => exact (Nat.le_succ _).trans ih

/-- Every slice has samples. -/
theorem pos (h : Reads ps a cut b) (hf : a.Filled ps) (hw : a.Within ps) :
    (∀ c ∈ cut, 0 < c.count) ∧ b.Within ps := by
  induction h with
  | done => exact ⟨by simp, hw⟩
  | within hk hn hlt =>
    refine ⟨by simpa using hn, fun p hp => ?_⟩
    cases hk.symm.trans hp
    exact hlt
  | @through p k o n cut c hk he _ ih =>
    have ho : o < p.samples.length := hw p hk
    obtain ⟨hpos, hw'⟩ := ih (fun j hj => hf j ((Nat.le_succ k).trans hj)) fun q hq => hf (k + 1) (Nat.le_succ k) q hq
    exact ⟨List.forall_mem_cons.2 ⟨by dsimp only; omega, hpos⟩, hw'⟩

/-- The first slice begins at the first place. -/
theorem head (h : Reads ps a cut b) {c : Slice} (hc : cut.head? = some c) :
    ps[a.packets]? = some c.packet ∧ c.offset = a.offset := by
  cases h with
  | done => cases hc
  | within hk | through hk => cases hc; exact ⟨hk, rfl⟩

/-- Between two packets the last slice uses its packet up. -/
theorem last (h : Reads ps a cut b) (hb : b.offset = 0) {c : Slice} (hc : cut.getLast? = some c) :
    c.ends = true ∧ ∃ k, b.packets = k + 1 ∧ ps[k]? = some c.packet := by
  induction h with
  | done => cases hc
  | within hk hn => exact absurd hb (by dsimp only; omega)
  | @through p k o n cut c' hk he hr ih =>
    cases hcut : cut.getLast? with
    | some d =>
      rw [List.getLast?_cons, hcut] at hc
      cases hc
      exact ih hb hcut
    | none =>
      obtain rfl := List.getLast?_eq_none_iff.1 hcut
      cases hr
      cases hc
      exact ⟨beq_iff_eq.2 he, k, rfl, hk⟩

end Reads

/-! ## Calls -/

section Calls

variable {S : Type} [HostSample S] {rate : Float} {ps qs : List DataPacket} {a b : Cursor} {rs : List (RxReturn S)}

/-- Calls lead from one place of a stream to another. -/
inductive Recited (rate : Float) (ps : List DataPacket) (a : Cursor) : List (RxReturn S) → Cursor → Prop
  | nil : Recited rate ps a [] a
  | concat {rs : List (RxReturn S)} {b c : Cursor} {y : RxReturn S} {buffers : List (List S)} {count : Nat}
      {asked : RxMetadata} {cut : List Slice} : Recited rate ps a rs b → Reads ps b cut c →
      cut.IsChain Slice.Follows → y.Cuts rate buffers count asked cut → Recited rate ps a (rs ++ [y]) c

/-- A call says of its slices what they are, or has none and fails. -/
theorem RxReturn.Cuts.told {y : RxReturn S} {buffers : List (List S)} {count : Nat} {asked : RxMetadata}
    {cut : List Slice} (h : y.Cuts rate buffers count asked cut) :
    (y.outcome = .ok (cut.map (·.count)).sum ∧ y.samples 0 = (cut.flatMap (·.samples)).map HostSample.ofRaw ∧
        y.metadata.Exact rate asked cut) ∨
      cut = [] ∧ ∃ e, y.outcome = .error e := by
  unfold RxReturn.Cuts at h
  split at h
  · exact .inl h
  · exact .inr h

/-- A call returns samples exactly if it has slices with samples. -/
theorem RxReturn.Cuts.delivers {y : RxReturn S} {buffers : List (List S)} {count : Nat} {asked : RxMetadata}
    {cut : List Slice} (h : y.Cuts rate buffers count asked cut) (hpos : ∀ c ∈ cut, 0 < c.count) :
    y.delivers = !cut.isEmpty := by
  rcases h.told with ⟨ho, -⟩ | ⟨rfl, e, ho⟩
  · rw [RxReturn.delivers, ho]
    cases cut with
    | nil => rfl
    | cons c cut =>
      have hc := hpos c List.mem_cons_self
      simp only [List.map_cons, List.sum_cons, List.isEmpty_cons, Bool.not_false, decide_eq_true_eq]
      omega
  · rw [RxReturn.delivers, ho]
    rfl

namespace Recited

/-- More packets do not matter for what was read. -/
theorem mono (h : Recited rate ps a rs b) (hp : ps <+: qs) : Recited rate qs a rs b := by
  induction h with
  | nil => exact .nil
  | concat _ hr hchain hy ih => exact .concat ih (hr.mono hp) hchain hy

/-- What the calls return lies between the two places. -/
theorem samples (h : Recited rate ps a rs b) :
    (b.before ps).map HostSample.ofRaw = (a.before ps).map HostSample.ofRaw ++ rs.flatMap (·.samples 0) := by
  induction h with
  | nil => simp
  | @concat rs b c y buffers count asked cut _ hr _ hy ih =>
    have hs : y.samples 0 = (cut.flatMap (·.samples)).map HostSample.ofRaw := by
      rcases hy.told with ⟨-, hs, -⟩ | ⟨rfl, e, he⟩
      · exact hs
      · rw [RxReturn.samples, he]
        rfl
    rw [hr.before_eq, List.map_append, ih, List.flatMap_append, List.flatMap_singleton, hs, List.append_assoc]

/-- As many ends of bursts are reported as lie between the two places. -/
theorem ends (h : Recited rate ps a rs b) :
    (b.usedUp ps).countP (·.header.endOfBurst) =
      (a.usedUp ps).countP (·.header.endOfBurst) + rs.countP RxReturn.endsBurst := by
  induction h with
  | nil => rfl
  | @concat rs b c y buffers count asked cut _ hr hchain hy ih =>
    have he : (cut.getLast?.any Slice.endsBurst).toNat = [y].countP RxReturn.endsBurst := by
      rw [List.countP_singleton, RxReturn.endsBurst]
      rcases hy.told with ⟨ho, -, hm⟩ | ⟨rfl, e, ho⟩
      · rw [ho, hm.endOfBurst]
        cases cut.getLast?.any Slice.endsBurst <;> rfl
      · rw [ho]
        rfl
    rw [hr.usedUp_count, countP_endsBurst hchain, ih, he, List.countP_append, Nat.add_assoc]

/-- Where no packet is empty, every slice has samples. -/
theorem within (h : Recited rate ps a rs b) (hf : a.Filled ps) (hw : a.Within ps) :
    a.packets ≤ b.packets ∧ b.Within ps := by
  induction h with
  | nil => exact ⟨Nat.le_refl _, hw⟩
  | concat _ hr _ _ ih =>
    obtain ⟨hle, hw'⟩ := ih
    exact ⟨hle.trans hr.packets_le, (hr.pos (fun k hk => hf k (hle.trans hk)) hw').2⟩

/-- The first call that returns samples begins at the first place. -/
theorem first (h : Recited rate ps a rs b) (hf : a.Filled ps) (hw : a.Within ps) :
    (rs.filter RxReturn.delivers = [] ∧ b = a) ∨
      ∃ y ∈ (rs.filter RxReturn.delivers).head?, ∃ p, ps[a.packets]? = some p ∧
        y.metadata.startOfBurst = (p.header.startOfBurst && a.offset == 0) ∧
        y.metadata.hasTime = p.header.hasTime ∧
        y.metadata.time = Instant.ofTicks ((p.header.timestamp.toNat + a.offset : Nat) : Int) rate := by
  induction h with
  | nil => exact .inl ⟨rfl, rfl⟩
  | @concat rs b c y buffers count asked cut h' hr _ hy ih =>
    rw [List.filter_append]
    rcases ih with ⟨hnone, rfl⟩ | ⟨z, hz, hp⟩
    · have hd := hy.delivers (hr.pos hf hw).1
      cases cut with
      | nil =>
        cases hr
        left
        rw [hnone, List.filter_singleton, hd]
        exact ⟨rfl, rfl⟩
      | cons d cut =>
        obtain ⟨hk, ho⟩ := hr.head rfl
        rcases hy.told with ⟨-, -, hm⟩ | ⟨hcut, -⟩
        · obtain ⟨-, htime, hinstant⟩ := hm.first d rfl
          right
          rw [hnone, List.filter_singleton, hd]
          refine ⟨y, rfl, d.packet, hk, ?_, htime, ho ▸ hinstant⟩
          rw [hm.startOfBurst, ← ho]
          rfl
        · cases hcut
    · right
      refine ⟨z, ?_, hp⟩
      rw [List.head?_append, Option.mem_def.1 hz]
      rfl

/-- The last call that returns samples comes to the last place. Between two packets it says
whether the packet before ends a burst. -/
theorem last (h : Recited rate ps a rs b) (hf : a.Filled ps) (hw : a.Within ps) (hb : b.offset = 0) :
    (rs.filter RxReturn.delivers = [] ∧ b = a) ∨
      ∃ y ∈ (rs.filter RxReturn.delivers).getLast?, ∃ k p, b.packets = k + 1 ∧ ps[k]? = some p ∧
        y.endsBurst = p.header.endOfBurst := by
  induction h with
  | nil => exact .inl ⟨rfl, rfl⟩
  | @concat rs b c y buffers count asked cut h' hr _ hy ih =>
    obtain ⟨hle, hw'⟩ := h'.within hf hw
    have hd := hy.delivers (hr.pos (fun k hk => hf k (hle.trans hk)) hw').1
    rw [List.filter_append, List.filter_singleton, hd]
    cases hcut : cut.getLast? with
    | none =>
      obtain rfl := List.getLast?_eq_none_iff.1 hcut
      cases hr
      simpa using ih hb
    | some d =>
      obtain ⟨hends, k, hk, hp⟩ := hr.last hb hcut
      have hne : cut.isEmpty = false := by
        cases cut with
        | nil => cases hcut
        | cons => rfl
      right
      rcases hy.told with ⟨ho, -, hm⟩ | ⟨rfl, -⟩
      · refine ⟨y, ?_, k, d.packet, hk, hp, ?_⟩
        · rw [hne]
          exact List.getLast?_concat ..
        · rw [RxReturn.endsBurst, ho, hm.endOfBurst, hcut, Option.any_some, Slice.endsBurst, hends]
          rfl
      · cases hcut

/-- Calls that read a burst return it. -/
theorem whole {p : DataPacket} (h : Recited rate (ps ++ qs) ⟨ps.length, 0⟩ rs ⟨(ps ++ qs).length, 0⟩)
    (hfirst : qs.head? = some p) (hstart : p.header.startOfBurst = true) (htime : p.header.hasTime = true)
    (hpos : ∀ q ∈ qs, 0 < q.samples.length)
    (hends : ∀ k q, qs[k]? = some q → q.header.endOfBurst = (k + 1 == qs.length)) :
    Whole ((samplesOf qs).map HostSample.ofRaw) (Instant.ofTicks (p.header.timestamp.toNat : Int) rate) rs := by
  have hat : ∀ k, (ps ++ qs)[ps.length + k]? = qs[k]? := fun k => by
    rw [List.getElem?_append_right (Nat.le_add_right _ _), Nat.add_sub_cancel_left]
  have hf : (Cursor.mk ps.length 0).Filled (ps ++ qs) := by
    intro k hk q hq
    obtain ⟨j, rfl⟩ := Nat.exists_eq_add_of_le hk
    rw [hat] at hq
    exact hpos q (List.mem_of_getElem? hq)
  have hw : (Cursor.mk ps.length 0).Within (ps ++ qs) := fun q hq => hf ps.length (Nat.le_refl _) q hq
  have hlen : 0 < qs.length := by
    cases qs with
    | nil => cases hfirst
    | cons => exact Nat.succ_pos _
  have hmoved : (Cursor.mk (ps ++ qs).length 0) ≠ ⟨ps.length, 0⟩ := by
    intro he
    have := congrArg Cursor.packets he
    simp only [List.length_append] at this
    omega
  constructor
  · have hs := h.samples
    simp only [Cursor.before, Cursor.usedUp, List.take_length, List.take_left, List.take_zero, List.append_nil,
      samplesOf_append, List.map_append] at hs
    exact (List.append_cancel_left hs).symm
  · rcases h.first hf hw with ⟨-, he⟩ | ⟨y, hy, q, hq, hs, ht, hi⟩
    · exact absurd he hmoved
    · have hq' : qs[0]? = some q := (hat 0).symm.trans hq
      rw [← List.head?_eq_getElem?, hfirst] at hq'
      cases hq'
      refine ⟨y, hy, ?_, ht.trans htime, hi⟩
      rw [hs, hstart]
      rfl
  · rcases h.last hf hw rfl with ⟨-, he⟩ | ⟨y, hy, k, q, hk, hq, he⟩
    · exact absurd he hmoved
    · have hk' : ps.length + qs.length = k + 1 := List.length_append.symm.trans hk
      obtain ⟨j, rfl⟩ := Nat.exists_eq_add_of_le (show ps.length ≤ k by omega)
      rw [hat] at hq
      refine ⟨y, hy, ?_⟩
      rw [he, hends j q hq, beq_iff_eq]
      omega
  · have he := h.ends
    simp only [Cursor.usedUp, List.take_length, List.take_left, List.countP_append] at he
    have hone := countP_eq_one_of_last hlen hends
    omega

end Recited

end Calls

end RadioStream
