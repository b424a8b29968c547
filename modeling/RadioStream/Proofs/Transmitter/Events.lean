import Mathlib.Data.List.Infix
import RadioStream.Proofs.Lane
import RadioStream.Proofs.RoundTrip
import RadioStream.Transmitter.Events
/-!
# Events on their way to the caller

The device sends frames on the links of a transmitter, a reader visits the links in any order,
and the caller takes events at any time, also while the reader has a frame in hand.
`EventSession` is all of it, one move after the other, with a record of what came on each link,
what the reader read, how each event left the queue and what the caller was given.

`events_in_order`: each event that was read has left the queue or is in it, in the order in
which they were read, and one that the caller did not get was the oldest of a full queue when
another came.
-/

namespace RadioStream

/-! ## What waits for the host -/

/-- What a frame adds to what waits on a lane: nothing if it is empty or there is no room. -/
def Lane.arrival (l : Lane) (f : Frame) : List Bytes :=
  if f.used = 0 ∨ l.waiting.isFull then [] else [f.payload]

theorem Lane.pending_submit (l : Lane) (f : Frame) : (l.submit f).pending = l.pending ++ l.arrival f := by
  unfold Lane.submit Lane.arrival
  by_cases hu : f.used = 0
  · simp [hu]
  · cases hp : l.waiting.push? f with
    | none =>
      have hfull := Queue.push?_eq_none_iff.1 hp
      simp [hu, Queue.isFull, hfull]
    | some q =>
      have hroom := Queue.lt_of_push? hp
      simp [hu, Queue.isFull, hroom, Lane.pending, Queue.items_push? hp]

/-- What waits for the host on the link of a channel. -/
def waitingOn (links : List Link) (i : Nat) : List Bytes := (links[i]?.map (·.toHost.pending)).getD []

/-- What a frame of the device adds to what waits on the link of a channel. -/
def arrivingOn (links : List Link) (i : Nat) (f : Frame) : List Bytes :=
  (links[i]?.map (·.toHost.arrival f)).getD []

theorem waitingOn_submit (links : List Link) (i j : Nat) (f : Frame) :
    waitingOn ((Terminal.device i).submit f links) j =
      waitingOn links j ++ if i = j then arrivingOn links i f else [] := by
  have hlink (l : Link) : (l.submit .device f).toHost = l.toHost.submit f := rfl
  simp only [waitingOn, arrivingOn, Terminal.device, Terminal.within, Terminal.ofEnd, List.getElem?_modify]
  by_cases hj : i = j
  · subst hj
    cases links[i]? <;> simp [hlink, Lane.pending_submit]
  · simp [hj]

theorem waitingOn_recycle (links : List Link) (i j : Nat) (f : Frame) :
    waitingOn ((Terminal.host i).recycle f links) j = waitingOn links j := by
  have hlink (l : Link) : (l.recycle .host f).toHost = l.toHost.recycle f := rfl
  simp only [waitingOn, Terminal.host, Terminal.within, Terminal.ofEnd, List.getElem?_modify]
  cases links[j]? <;> by_cases hj : i = j <;> simp [hj, hlink]

/-- What has waited longest on a link is taken, and nothing only where nothing waits. -/
theorem waitingOn_receive (links : List Link) (i wait : Nat) :
    waitingOn links i = ((Terminal.host i).receive wait links).1.toList.map Frame.payload ++
        waitingOn ((Terminal.host i).receive wait links).2 i ∧
      (((Terminal.host i).receive wait links).1 = none → waitingOn links i = []) ∧
      ∀ j, i ≠ j → waitingOn ((Terminal.host i).receive wait links).2 j = waitingOn links j := by
  cases hi : links[i]? with
  | none => simp [Terminal.host, Terminal.within, waitingOn, hi]
  | some l =>
    obtain ⟨hlt, rfl⟩ := List.getElem?_eq_some_iff.1 hi
    rcases hr : links[i].toHost.receive with ⟨f, lane⟩
    have hreceive : (Terminal.host i).receive wait links = (f, links.set i { links[i] with toHost := lane }) := by
      simp [Terminal.host, Terminal.within, Terminal.ofEnd, hlt, Link.receive, Link.inbound, Link.withInbound, hr]
    rw [hreceive]
    refine ⟨?_, fun hf => ?_, fun j hj => ?_⟩
    · cases f with
      | none => simp [waitingOn, hlt, (Lane.receive_none hr).2]
      | some f => simp [waitingOn, hlt, Lane.pending, (Lane.receive_some hr).1]
    · subst hf
      simp [waitingOn, hlt, Lane.pending, (Lane.receive_none hr).1]
    · simp [waitingOn, hj]

/-! ## Reading an event -/

namespace Event

/-- A frame holds an event if its packet is one and can be read. The channel is the one whose
link it came on, the time is that of the timestamp, if there is one. -/
theorem ofFrame?_eq_some_iff {rate : Float} {channel : Nat} {frame : Bytes} {e : Event} :
    ofFrame? rate channel frame = some e ↔
      ∃ h payload r, Header.decode frame = .ok (h, payload) ∧ h.kind = .event ∧
        EventReport.decode payload = .ok r ∧
        e = ⟨channel, r.code, r.words, h.timestamp?.map (Instant.ofCounter · rate)⟩ := by
  unfold ofFrame?
  cases hd : Header.decode frame with
  | error err => simp
  | ok hp =>
    obtain ⟨h, payload⟩ := hp
    by_cases hk : h.kind = .event
    · cases hr : EventReport.decode payload with
      | error err => simp [hk, hr]
      | ok r =>
        have htime : h.timestamp?.map (Instant.ofCounter · rate) =
            if h.hasTime then some (Instant.ofCounter h.timestamp rate) else none := by
          unfold Header.timestamp?
          cases h.hasTime <;> rfl
        simp only [hk, hr, ← htime, if_true, Option.some.injEq]
        constructor
        · rintro rfl
          exact ⟨h, payload, r, rfl, hk, hr, rfl⟩
        · rintro ⟨_, _, r', hh, -, hr', rfl⟩
          cases hh
          rw [hr] at hr'
          cases hr'
          rfl
    · simp [hk]

theorem channel_of_ofFrame? {rate : Float} {channel : Nat} {frame : Bytes} {e : Event}
    (h : ofFrame? rate channel frame = some e) : e.channel = channel := by
  obtain ⟨_, _, _, _, _, _, rfl⟩ := ofFrame?_eq_some_iff.1 h
  rfl

/-- The event of a packet that the device wrote over anything. -/
theorem ofFrame?_encode (rate : Float) (channel : Nat) (r : EventReport) (t : Option UInt64) {frame : Bytes}
    (h : 40 ≤ frame.length) :
    ofFrame? rate channel ((r.encode t frame).frame.take 40) =
      some ⟨channel, r.code, r.words, t.map (Instant.ofCounter · rate)⟩ := by
  obtain ⟨hkind, htime⟩ := Header.sized_stamped .event r.payload t
  have hback : ReadsBack (r.encode t) 40 fun g p =>
      g.kind = .event ∧ g.timestamp? = t ∧ EventReport.decode p = .ok r :=
    (Header.stamped { kind := .event } t).encodePacket_readsBack_of r.length_payload (by decide)
      ⟨hkind, htime, r.decode_payload⟩
  obtain ⟨bytes, hl, hputs, hread⟩ := hback
  rw [((hputs frame).fits (hl ▸ h)).2, List.take_left' hl]
  obtain ⟨g, p, hd, hk, ht, hr⟩ := hread bytes List.prefix_rfl
  exact ofFrame?_eq_some_iff.2 ⟨g, p, r, hd, hk, hr, by rw [ht]⟩

/-- The events in what came on a channel. -/
def inFrames (rate : Float) (channel : Nat) (frames : List Bytes) : List Event :=
  frames.filterMap (ofFrame? rate channel)

end Event

/-- How an event left the queue. -/
inductive Departure where
  /-- The caller took it. -/
  | taken (e : Event)
  /-- It was the oldest of those queued, and another event came. -/
  | evicted (oldest : Event) (queued : List Event) (next : Event)

namespace Departure

def event : Departure → Event
  | taken e => e
  | evicted e _ _ => e

/-- What the caller got. -/
def gift? : Departure → Option Event
  | taken e => some e
  | evicted .. => none

end Departure

/-- Whichever event another one pushed out of a queue with room for `n` was the oldest of `n`
that were queued. They stand one after the other among all events, and then the other one. -/
def Displaces (n : Nat) (events : List Event) (departures : List Departure) : Prop :=
  ∀ (k : Nat) oldest queued next, departures[k]? = some (.evicted oldest queued next) →
    queued.length = n ∧ queued.head? = some oldest ∧ queued ++ [next] <+: events.drop k

namespace Displaces

variable {n : Nat} {events events' : List Event} {departures : List Departure}

theorem mono (h : Displaces n events departures) (he : events <+: events') : Displaces n events' departures := by
  intro k oldest queued next hk
  obtain ⟨hl, hh, hp⟩ := h k oldest queued next hk
  exact ⟨hl, hh, hp.trans (he.drop k)⟩

theorem snoc (h : Displaces n events departures) {d : Departure}
    (hd : ∀ oldest queued next, d = .evicted oldest queued next →
      queued.length = n ∧ queued.head? = some oldest ∧ queued ++ [next] <+: events.drop departures.length) :
    Displaces n events (departures ++ [d]) := by
  intro k oldest queued next hk
  rw [List.getElem?_append] at hk
  split at hk
  · exact h k oldest queued next hk
  · obtain ⟨rfl, rfl⟩ : k = departures.length ∧ d = .evicted oldest queued next := by
      rw [List.getElem?_singleton] at hk
      split at hk
      · exact ⟨by omega, Option.some.inj hk⟩
      · cases hk
    exact hd oldest queued next rfl

end Displaces

namespace EventReader

/-- What leaves the queue when a frame is read. -/
def displaced (r : EventReader) (channel : Nat) (frame : Bytes) : List Departure :=
  match Event.ofFrame? r.rate channel frame with
  | some e => (r.queue.pushForce e).1.toList.map (.evicted · r.queue.items e)
  | none => []

theorem rate_keep (r : EventReader) (channel : Nat) (frame : Bytes) : (r.keep channel frame).rate = r.rate := by
  unfold keep
  split <;> rfl

/-- The event of a frame goes to the end of the queue. Where the queue is full, the oldest one
leaves. -/
theorem keep_cases (r : EventReader) (channel : Nat) (frame : Bytes) :
    (r.keep channel frame).queue.capacity = r.queue.capacity ∧
      r.queue.items ++ (Event.ofFrame? r.rate channel frame).toList =
        (r.displaced channel frame).map Departure.event ++ (r.keep channel frame).queue.items ∧
      (r.displaced channel frame = [] ∨
        ∃ oldest next, r.displaced channel frame = [.evicted oldest r.queue.items next] ∧
          Event.ofFrame? r.rate channel frame = some next ∧ r.queue.items.length = r.queue.capacity ∧
          r.queue.items.head? = some oldest) := by
  unfold keep displaced
  cases he : Event.ofFrame? r.rate channel frame with
  | none => simp
  | some e =>
    cases hp : r.queue.push? e with
    | some q =>
      simp [Queue.pushForce_of_push? hp, Queue.capacity_push? hp, Queue.items_push? hp]
    | none =>
      obtain ⟨hout, hitems, hcap⟩ := Queue.pushForce_of_full hp
      obtain ⟨y, ys, hq⟩ := Queue.exists_oldest hp
      have hfull := Queue.push?_eq_none_iff.1 hp
      rw [hq] at hout hitems hfull
      simp [hout, hitems, hcap, hq, hfull, Departure.event]

end EventReader

/-! ## Sessions -/

/-- What a record has of one channel. -/
def ofChannel {β : Type} (i : Nat) (xs : List (Nat × β)) : List β := (xs.filter (·.1 = i)).map (·.2)

section OfChannel

variable {β : Type} (i j : Nat)

theorem ofChannel_append (xs ys : List (Nat × β)) : ofChannel i (xs ++ ys) = ofChannel i xs ++ ofChannel i ys := by
  simp [ofChannel]

theorem ofChannel_tagged (xs : List β) : ofChannel i (xs.map (Prod.mk j)) = if j = i then xs else [] := by
  by_cases h : j = i <;> simp [ofChannel, h, List.filter_map, Function.comp_def]

end OfChannel

inductive EventMove where
  /-- The device sends a frame on the link of a channel. -/
  | deliver (channel : Nat) (f : Frame)
  /-- Something happens on the links, but not to what waits for the host. -/
  | elapse (change : List Link → List Link) (keeps : ∀ links i, waitingOn (change links) i = waitingOn links i)
  /-- The reader comes to the link of a channel and takes a frame from it. -/
  | fetch (channel wait : Nat)
  /-- The reader reads the frame and lets it go. -/
  | keep
  /-- The caller asks for an event. -/
  | take

/-- What a visit to the link of a channel comes to. -/
def EventMove.visit (channel wait : Nat) : List EventMove := [.fetch channel wait, .keep]

/-- Links, the reader beside them, and what happened to them, oldest first. -/
structure EventSession where
  links : List Link
  reader : EventReader
  /-- The frame that the reader has in hand, with its channel. -/
  hand : Option (Nat × Frame) := none
  /-- What came on each link. -/
  delivered : List (Nat × Bytes) := []
  /-- What the reader has read of each link. -/
  read : List (Nat × Bytes) := []
  /-- How events left the queue. -/
  departures : List Departure := []
  /-- What the caller's calls gave. -/
  replies : List (Option Event) := []

namespace EventSession

def step (s : EventSession) : EventMove → EventSession
  | .deliver i f =>
    { s with
      links := (Terminal.device i).submit f s.links
      delivered := s.delivered ++ (arrivingOn s.links i f).map (Prod.mk i) }
  | .elapse change _ => { s with links := change s.links }
  | .fetch i wait => match s.hand with
    | some _ => s
    | none =>
      let (frame, links) := (Terminal.host i).receive wait s.links
      { s with links, hand := frame.map (Prod.mk i) }
  | .keep => match s.hand with
    | some (i, frame) =>
      { s with
        links := (Terminal.host i).recycle frame s.links
        reader := s.reader.keep i frame.payload
        hand := none
        read := s.read ++ [(i, frame.payload)]
        departures := s.departures ++ s.reader.displaced i frame.payload }
    | none => s
  | .take =>
    let (reply, reader) := s.reader.take
    { s with
      reader
      departures := s.departures ++ reply.toList.map .taken
      replies := s.replies ++ [reply] }

def run (s : EventSession) (ms : List EventMove) : EventSession := ms.foldl step s

/-- The events that were read. -/
def events (rate : Float) (s : EventSession) : List Event :=
  s.read.filterMap fun (i, frame) => Event.ofFrame? rate i frame

/-- What was in the frame that the reader has in hand. -/
def held (s : EventSession) : List (Nat × Bytes) := s.hand.toList.map fun (i, frame) => (i, frame.payload)

/-- The events that the caller got. -/
def returned (s : EventSession) : List Event := s.replies.filterMap id

/-- What the books say at every moment, for a queue with room for `n` events. `before` is what
waited on the links at first. -/
structure Kept (rate : Float) (n : Nat) (before : Nat → List Bytes) (s : EventSession) : Prop where
  sameRate : s.reader.rate = rate
  capacity : s.reader.queue.capacity = n
  heard : ∀ i, before i ++ ofChannel i s.delivered =
    ofChannel i s.read ++ (ofChannel i s.held ++ waitingOn s.links i)
  counted : s.events rate = s.departures.map Departure.event ++ s.reader.queue.items
  full : Displaces n (s.events rate) s.departures
  returned : s.returned = s.departures.filterMap Departure.gift?

variable {s : EventSession} {rate : Float} {n : Nat} {before : Nat → List Bytes}

theorem Kept.deliver (h : s.Kept rate n before) (i : Nat) (f : Frame) : (s.step (.deliver i f)).Kept rate n before :=
  { h with
    heard := fun j => by
      simp only [step, held, ofChannel_append, ofChannel_tagged, waitingOn_submit, ← List.append_assoc]
      rw [h.heard j, held, ← List.append_assoc] }

theorem Kept.elapse (h : s.Kept rate n before) {change : List Link → List Link}
    (keeps : ∀ links i, waitingOn (change links) i = waitingOn links i) :
    (s.step (.elapse change keeps)).Kept rate n before :=
  { h with heard := fun j => by simp only [step, keeps, h.heard j, held] }

theorem Kept.take (h : s.Kept rate n before) : (s.step .take).Kept rate n before := by
  rcases ht : s.reader.queue.take with ⟨reply, queue⟩
  have hstep : s.step .take =
      { s with
        reader := { s.reader with queue }
        departures := s.departures ++ reply.toList.map .taken
        replies := s.replies ++ [reply] } := by
    simp only [EventSession.step, EventReader.take, ht]
  have hevents : (s.step .take).events rate = s.events rate := by rw [hstep]; rfl
  rw [hstep] at hevents ⊢
  cases reply with
  | none =>
    obtain ⟨-, rfl⟩ := Queue.take_eq_none ht
    refine ⟨h.sameRate, h.capacity, h.heard, ?_, ?_, ?_⟩
    · rw [hevents, h.counted]
      simp
    · rw [hevents]
      simpa using h.full
    · simpa [EventSession.returned] using h.returned
  | some e =>
    obtain ⟨hitems, hcap⟩ := Queue.take_eq_some ht
    refine ⟨h.sameRate, hcap.trans h.capacity, h.heard, ?_, ?_, ?_⟩
    · rw [hevents, h.counted, hitems]
      simp [Departure.event]
    · rw [hevents]
      exact h.full.snoc (by simp)
    · have hr := h.returned
      unfold EventSession.returned at hr ⊢
      rw [List.filterMap_append, List.filterMap_append, hr]
      rfl

theorem Kept.fetch (h : s.Kept rate n before) (i wait : Nat) : (s.step (.fetch i wait)).Kept rate n before := by
  cases hh : s.hand with
  | some x =>
    simp only [EventSession.step, hh]
    exact h
  | none =>
    obtain ⟨hi, -, ho⟩ := waitingOn_receive s.links i wait
    simp only [EventSession.step, hh]
    refine { h with heard := fun j => ?_ }
    have hempty : ofChannel j s.held = [] := by simp [EventSession.held, hh, ofChannel]
    have hcame : ofChannel j (((Terminal.host i).receive wait s.links).1.toList.map fun f => (i, f.payload)) ++
        waitingOn ((Terminal.host i).receive wait s.links).2 j = waitingOn s.links j := by
      by_cases hj : i = j
      · subst hj
        rw [hi]
        cases ((Terminal.host i).receive wait s.links).1 <;> simp [ofChannel]
      · rw [ho j hj]
        cases ((Terminal.host i).receive wait s.links).1 <;> simp [ofChannel, hj]
    rw [h.heard j, hempty, List.nil_append, ← hcame]
    simp only [EventSession.held, Option.toList_map, List.map_map, Function.comp_def]

theorem Kept.keep (h : s.Kept rate n before) : (s.step .keep).Kept rate n before := by
  cases hh : s.hand with
  | none =>
    simp only [EventSession.step, hh]
    exact h
  | some x =>
    obtain ⟨i, frame⟩ := x
    obtain ⟨hcap, hqueue, hout⟩ := s.reader.keep_cases i frame.payload
    rw [h.sameRate] at hqueue hout
    have hevents : (s.step .keep).events rate = s.events rate ++ (Event.ofFrame? rate i frame.payload).toList := by
      simp only [EventSession.step, hh, EventSession.events, List.filterMap_append]
      cases he : Event.ofFrame? rate i frame.payload <;> simp [he]
    simp only [EventSession.step, hh] at hevents ⊢
    refine ⟨(s.reader.rate_keep i frame.payload).trans h.sameRate, hcap.trans h.capacity, fun j => ?_, ?_, ?_, ?_⟩
    · rw [h.heard j]
      simp [EventSession.held, hh, waitingOn_recycle, ofChannel]
    · rw [hevents, h.counted, List.append_assoc, hqueue]
      simp
    · rw [hevents]
      have hmono := h.full.mono (List.prefix_append _ (Event.ofFrame? rate i frame.payload).toList)
      rcases hout with hout | ⟨oldest, next, hout, hnext, hlen, hhead⟩
      · simpa [hout] using hmono
      · rw [hout]
        refine hmono.snoc fun o q x heq => ?_
        cases heq
        refine ⟨hlen.trans h.capacity, hhead, ?_⟩
        -- before this departure, what was read is what left and then what is queued
        rw [h.counted, hnext, List.append_assoc, List.drop_left' (by simp)]
        exact List.prefix_rfl
    · have hgift : (s.reader.displaced i frame.payload).filterMap Departure.gift? = [] := by
        rcases hout with hout | ⟨_, _, hout, -⟩ <;> rw [hout] <;> rfl
      rw [List.filterMap_append, hgift, List.append_nil]
      exact h.returned

theorem Kept.step (h : s.Kept rate n before) (m : EventMove) : (s.step m).Kept rate n before := by
  cases m with
  | deliver i f => exact h.deliver i f
  | elapse change keeps => exact h.elapse keeps
  | fetch i wait => exact h.fetch i wait
  | keep => exact h.keep
  | take => exact h.take

theorem Kept.run (h : s.Kept rate n before) (ms : List EventMove) : (s.run ms).Kept rate n before := by
  induction ms generalizing s with
  | nil => exact h
  | cons m ms ih => exact ih (h.step m)

theorem kept_run (rate : Float) (links : List Link) (ms : List EventMove) :
    (EventSession.run { links, reader := EventReader.new rate } ms).Kept rate 1000 (waitingOn links) := by
  have hnew : ({ links, reader := EventReader.new rate } : EventSession).Kept rate 1000 (waitingOn links) :=
    ⟨rfl, rfl, fun i => by simp [ofChannel, held], rfl, by simp [Displaces], rfl⟩
  exact hnew.run ms

theorem run_append (s : EventSession) (ms ms' : List EventMove) : s.run (ms ++ ms') = (s.run ms).run ms' :=
  List.foldl_append

/-- A visit whose parts follow one another. -/
theorem run_visit (s : EventSession) (h : s.hand = none) (i wait : Nat) :
    let s' := s.run (EventMove.visit i wait)
    s.reader.visit (Terminal.host i) i wait s.links = (s'.reader, s'.links) ∧ s'.hand = none := by
  intro s'
  have hvisit : s' = (s.step (.fetch i wait)).step .keep := rfl
  rcases hf : (Terminal.host i).receive wait s.links with ⟨_ | frame, links⟩ <;>
    simp [hvisit, step, h, hf, EventReader.visit, Terminal.take]

/-- A round of the reader visits every link once. -/
theorem run_round (s : EventSession) (h : s.hand = none) (channels wait : Nat) :
    let s' := s.run ((List.range channels).flatMap (EventMove.visit · wait))
    s.reader.round Terminal.host channels wait s.links = (s'.reader, s'.links) := by
  simp only [EventReader.round]
  induction List.range channels generalizing s with
  | nil => rfl
  | cons i is ih =>
    obtain ⟨hvisit, hhand⟩ := s.run_visit h i wait
    rw [List.foldl_cons, List.flatMap_cons, run_append, hvisit]
    exact ih _ hhand

/-- What the caller got is, channel by channel, in the order in which it came on the links. -/
theorem Kept.returned_sublist (h : s.Kept rate n before) (i : Nat) :
    (s.returned.filter (·.channel = i)).Sublist (Event.inFrames rate i (before i ++ ofChannel i s.delivered)) := by
  have hgift : s.returned.Sublist (s.events rate) := by
    rw [h.returned, h.counted]
    refine .trans ?_ (List.sublist_append_left _ _)
    induction s.departures with
    | nil => exact .slnil
    | cons d ds ih =>
      cases d with
      | taken e => exact ih.cons_cons e
      | evicted e _ _ => exact ih.cons e
  have hread : (s.events rate).filter (·.channel = i) = Event.inFrames rate i (ofChannel i s.read) := by
    rw [EventSession.events, Event.inFrames]
    induction s.read with
    | nil => rfl
    | cons jf fs ih =>
      obtain ⟨j, f⟩ := jf
      cases he : Event.ofFrame? rate j f with
      | none => by_cases hj : j = i <;> simp_all [ofChannel]
      | some e =>
        have hc := Event.channel_of_ofFrame? he
        by_cases hj : j = i <;> simp_all [ofChannel]
  rw [h.heard i, Event.inFrames, List.filterMap_append, ← Event.inFrames, ← hread]
  exact (hgift.filter _).trans (List.sublist_append_left _ _)

/-- Visits to one link read what has waited there longest. -/
theorem run_visits (s : EventSession) (h : s.hand = none) (i wait m : Nat) :
    (s.run (List.replicate m (EventMove.visit i wait)).flatten).read =
        s.read ++ ((waitingOn s.links i).take m).map (Prod.mk i) ∧
      (s.run (List.replicate m (EventMove.visit i wait)).flatten).replies = s.replies := by
  induction m generalizing s with
  | zero => simp [run]
  | succ m ih =>
    rw [List.replicate_succ, List.flatten_cons, run_append]
    obtain ⟨hread, hreplies⟩ := ih _ (s.run_visit h i wait).2
    obtain ⟨hi, hnone, -⟩ := waitingOn_receive s.links i wait
    rcases hf : (Terminal.host i).receive wait s.links with ⟨frame, links⟩
    rw [hf] at hi hnone
    have hvisit : s.run (EventMove.visit i wait) = (s.step (.fetch i wait)).step .keep := rfl
    rw [hread, hreplies, hvisit]
    cases frame with
    | none =>
      rw [Option.toList_none, List.map_nil, List.nil_append] at hi
      simp [step, h, hf, ← hi, hnone rfl]
    | some frame =>
      simp [step, h, hf, hi, waitingOn_recycle]

/-- The first event to be pushed out, where the caller takes none. -/
theorem Kept.first_evicted (h : s.Kept rate n before) (hr : s.replies = []) {events : List Event} {next : Event}
    (he : s.events rate = events ++ [next]) (hl : events.length = n) :
    ∃ oldest, s.departures[0]? = some (.evicted oldest events next) := by
  have hcounted := h.counted
  have hbound : s.reader.queue.items.length ≤ n := h.capacity ▸ s.reader.queue.bounded
  have hreturned := h.returned
  rw [EventSession.returned, hr] at hreturned
  cases hd : s.departures with
  | nil =>
    rw [hd, he] at hcounted
    have hlen := congrArg List.length hcounted
    simp at hlen
    omega
  | cons d ds =>
    cases d with
    | taken e => simp [hd, Departure.gift?] at hreturned
    | evicted oldest queued x =>
      obtain ⟨hq, -, hp⟩ := h.full 0 oldest queued x (by rw [hd]; rfl)
      rw [he, List.drop_zero] at hp
      obtain ⟨rfl, hx⟩ := List.append_inj (hp.eq_of_length (by simp [hq, hl])) (hq.trans hl.symm)
      cases hx
      exact ⟨oldest, rfl⟩

end EventSession

/-- Links on which anything waits, a reader beside them, and any moves of the device, the
reader and the caller. The reader takes the frames of each link in their order. An event that
was read has left the queue or is in it, in the order of reading. The caller got those that
left but were not pushed out, each from the link of its channel and in the order of that link.
One that was pushed out was the oldest of a thousand when the next one came. An event is what
its frame says. -/
theorem events_in_order (rate : Float) (links : List Link) (ms : List EventMove) :
    let s := EventSession.run { links, reader := EventReader.new rate } ms
    (∀ i, ofChannel i s.read <+: waitingOn links i ++ ofChannel i s.delivered) ∧
      s.events rate = s.departures.map Departure.event ++ s.reader.queue.items ∧
      s.returned = s.departures.filterMap Departure.gift? ∧
      s.reader.queue.items.length ≤ 1000 ∧
      (∀ i, (s.returned.filter (·.channel = i)).Sublist
        (Event.inFrames rate i (waitingOn links i ++ ofChannel i s.delivered))) ∧
      (∀ (k : Nat) oldest queued next, s.departures[k]? = some (.evicted oldest queued next) →
        queued.length = 1000 ∧ queued.head? = some oldest ∧ queued ++ [next] <+: (s.events rate).drop k) ∧
      ∀ i frame e, Event.ofFrame? rate i frame = some e ↔
        ∃ h payload r, Header.decode frame = .ok (h, payload) ∧ h.kind = .event ∧
          EventReport.decode payload = .ok r ∧
          e = ⟨i, r.code, r.words, h.timestamp?.map (Instant.ofCounter · rate)⟩ := by
  intro s
  have h : s.Kept rate 1000 (waitingOn links) := EventSession.kept_run rate links ms
  refine ⟨fun i => ?_, h.counted, h.returned, h.capacity ▸ s.reader.queue.bounded, h.returned_sublist, h.full,
    fun i frame e => Event.ofFrame?_eq_some_iff⟩
  rw [h.heard i]
  exact List.prefix_append _ _

/-- A thousand and one events wait on a link, and the caller takes none. The last one pushes the
first one out. -/
theorem events_in_order_full :
    let report (w : UInt32) : EventReport := { channel := 0, code := .underflow, words := { first := w } }
    let event (w : UInt32) : Event := { channel := 0, code := .underflow, words := { first := w }, time := none }
    let frame (w : UInt32) : Frame :=
      { slot := 0, window := ((report w).encode none (List.replicate 64 0)).frame, used := 40 }
    let lane : Lane :=
      { home := ⟨64, 1, Queue.new 1⟩
        waiting :=
          ⟨1001, List.replicate 1000 (frame 0) ++ [frame 1], by decide, by
            rw [List.length_append, List.length_replicate]
            exact Nat.le_refl 1001⟩ }
    let s := EventSession.run { links := [{ toHost := lane, toDevice := lane }], reader := EventReader.new 1 }
      (List.replicate 1001 (EventMove.visit 0 0)).flatten
    s.departures[0]? = some (.evicted (event 0) (List.replicate 1000 (event 0)) (event 1)) := by
  intro report event frame lane
  have hevent (w : UInt32) : Event.ofFrame? 1 0 (frame w).payload = some (event w) :=
    Event.ofFrame?_encode 1 0 (report w) none (by simp)
  have hw : waitingOn [{ toHost := lane, toDevice := lane }] 0 =
      List.replicate 1000 (frame 0).payload ++ [(frame 1).payload] := by
    simp [-List.reduceReplicate, waitingOn, lane, Lane.pending]
  generalize [({ toHost := lane, toDevice := lane } : Link)] = links at hw ⊢
  have hvisits := EventSession.run_visits { links, reader := EventReader.new 1 } rfl 0 0 1001
  generalize (List.replicate 1001 (EventMove.visit 0 0)).flatten = ms at hvisits ⊢
  have h := events_in_order 1 links ms
  have hk := EventSession.kept_run 1 links ms
  generalize EventSession.run { links, reader := EventReader.new 1 } ms = s at hvisits h hk ⊢
  obtain ⟨hread, hreplies⟩ := hvisits
  have hevents : s.events 1 = List.replicate 1000 (event 0) ++ [event 1] := by
    have hfirst : (List.replicate 1000 (0, (frame 0).payload)).filterMap (fun x => Event.ofFrame? 1 x.1 x.2) =
        List.replicate 1000 (event 0) := List.filterMap_replicate_of_some (hevent 0)
    rw [EventSession.events, hread, hw, List.take_of_length_le (by simp [-List.reduceReplicate])]
    simp only [List.map_append, List.map_replicate, List.map_cons, List.map_nil, List.nil_append,
      List.filterMap_append, List.filterMap_cons, List.filterMap_nil, hfirst, hevent]
  obtain ⟨oldest, hd⟩ := hk.first_evicted hreplies hevents List.length_replicate
  -- the oldest of those that were queued is the first one
  have hhead := (h.2.2.2.2.2.1 0 _ _ _ hd).2.1
  rw [List.head?_replicate, if_neg (by decide)] at hhead
  cases hhead
  exact hd

end RadioStream
