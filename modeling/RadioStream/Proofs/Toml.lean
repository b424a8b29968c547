import Mathlib.Data.List.Nodup
import RadioStream.Toml.Document
/-!
# Names of a document

A document gives each name one value, at its top and in every table within it. A value that
is read has this property (`Node.Proper`), and all ways of putting values into a table keep
it (`Keeps`).
-/

namespace RadioStream.Toml

/-- A value whose tables give each name one value. -/
inductive Node.Proper : Node → Prop where
  | string (s : String) : Proper (.string s)
  | integer (n : Int) : Proper (.integer n)
  | float (x : Float) : Proper (.float x)
  | boolean (b : Bool) : Proper (.boolean b)
  | moment (text : String) : Proper (.moment text)
  | array {items : List Node} (h : ∀ n ∈ items, n.Proper) : Proper (.array items)
  | table {origin : Origin} {es : List (String × Node)} (names : (es.map (·.1)).Nodup)
      (values : ∀ p ∈ es, p.2.Proper) : Proper (.table origin es)
  | tables {items : List (List (String × Node))} (names : ∀ es ∈ items, (es.map (·.1)).Nodup)
      (values : ∀ es ∈ items, ∀ p ∈ es, p.2.Proper) : Proper (.tables items)

/-- Each name has one value, here and in the tables within. -/
structure Entries.Proper (es : Entries) : Prop where
  names : (es.map (·.1)).Nodup
  values : ∀ p ∈ es, p.2.Proper

variable {es es' sub : Entries} {items items' : List Entries} {origin : Origin} {n : Node} {key : String}
  {f : Entries → Option Entries}

@[simp] theorem Node.proper_table : (Node.table origin es).Proper ↔ es.Proper :=
  ⟨fun | .table h h' => ⟨h, h'⟩, fun h => .table h.names h.values⟩

@[simp] theorem Node.proper_tables : (Node.tables items).Proper ↔ ∀ es ∈ items, Entries.Proper es :=
  ⟨fun | .tables h h' => fun es hes => ⟨h es hes, h' es hes⟩,
    fun h => .tables (fun es hes => (h es hes).names) fun es hes => (h es hes).values⟩

theorem Entries.Proper.nil : Entries.Proper [] := ⟨List.nodup_nil, by simp⟩

/-- What leaves each name with one value. -/
def Keeps (f : Entries → Option Entries) : Prop := ∀ es es', f es = some es' → es.Proper → es'.Proper

namespace Entries

/-! ## Putting values into tables -/

theorem mem_names_alter {g : Option Node → Option Node} (h : alter key g es = some es') {k : String}
    (hk : k ∈ es'.map (·.1)) : k = key ∨ k ∈ es.map (·.1) := by
  induction es generalizing es' with
  | nil =>
    obtain ⟨n, -, rfl⟩ := Option.map_eq_some_iff.1 h
    exact .inl (by simpa using hk)
  | cons e es ih =>
    rw [alter] at h
    split at h
    · obtain ⟨n, -, rfl⟩ := Option.map_eq_some_iff.1 h
      exact .inr hk
    · obtain ⟨rest, hrest, rfl⟩ := Option.map_eq_some_iff.1 h
      rcases List.mem_cons.1 hk with rfl | hk
      · exact .inr List.mem_cons_self
      · exact (ih hrest hk).imp_right (List.mem_cons_of_mem _)

/-- A name gets another value, which must be proper if the one it had was. -/
theorem keeps_alter {g : Option Node → Option Node}
    (hg : ∀ o n, g o = some n → (∀ m, o = some m → m.Proper) → n.Proper) : Keeps (alter key g) := by
  intro es es' h hes
  induction es generalizing es' with
  | nil =>
    obtain ⟨n, hn, rfl⟩ := Option.map_eq_some_iff.1 h
    exact ⟨List.nodup_singleton _, by simpa using hg none n hn (by simp)⟩
  | cons e es ih =>
    obtain ⟨hkey, hnames⟩ := List.nodup_cons.1 hes.names
    have htail : Entries.Proper es := ⟨hnames, fun p hp => hes.values p (List.mem_cons_of_mem _ hp)⟩
    have hhead : e.2.Proper := hes.values e List.mem_cons_self
    rw [alter] at h
    split at h
    next =>
      obtain ⟨n, hn, rfl⟩ := Option.map_eq_some_iff.1 h
      have hproper : n.Proper := hg _ n hn fun m hm => Option.some.inj hm ▸ hhead
      exact ⟨hes.names, List.forall_mem_cons.2 ⟨hproper, htail.values⟩⟩
    next hne =>
      obtain ⟨rest, hrest, rfl⟩ := Option.map_eq_some_iff.1 h
      have hr := ih rest hrest htail
      refine ⟨List.nodup_cons.2 ⟨fun hmem => ?_, hr.names⟩, List.forall_mem_cons.2 ⟨hhead, hr.values⟩⟩
      exact (mem_names_alter hrest hmem).elim hne hkey

theorem keeps_insert (hn : n.Proper) : Keeps (insert key n) :=
  keeps_alter fun o m h _ => by
    cases o with
    | none => exact Option.some.inj h ▸ hn
    | some _ => cases h

theorem proper_of_onLast (hf : Keeps f) (h : onLast f items = some items') (hi : ∀ es ∈ items, Entries.Proper es) :
    ∀ es ∈ items', Entries.Proper es := by
  induction items generalizing items' with
  | nil => cases h
  | cons es items ih =>
    obtain ⟨hes, hitems⟩ := List.forall_mem_cons.1 hi
    cases items with
    | nil =>
      obtain ⟨es', he, rfl⟩ := Option.map_eq_some_iff.1 h
      simpa using hf es es' he hes
    | cons e items =>
      obtain ⟨rest, hrest, rfl⟩ := Option.map_eq_some_iff.1 h
      exact List.forall_mem_cons.2 ⟨hes, ih hrest hitems⟩

theorem keeps_insertAt (hn : n.Proper) (path : List String) : Keeps (insertAt path key n) := by
  induction path with
  | nil =>
    intro es es' h
    rw [insertAt] at h
    exact keeps_insert hn es es' h
  | cons name path ih =>
    intro es es' h
    rw [insertAt] at h
    refine keeps_alter (fun o m hm ho => ?_) es es' h
    split at hm
    case h_1 =>
      obtain ⟨sub, hsub, rfl⟩ := Option.map_eq_some_iff.1 hm
      exact Node.proper_table.2 (ih _ _ hsub .nil)
    case h_2 =>
      obtain ⟨sub, hsub, rfl⟩ := Option.map_eq_some_iff.1 hm
      exact Node.proper_table.2 (ih _ _ hsub (Node.proper_table.1 (ho _ rfl)))
    case h_3 =>
      split at hm
      · cases hm
      · obtain ⟨sub, hsub, rfl⟩ := Option.map_eq_some_iff.1 hm
        exact Node.proper_table.2 (ih _ _ hsub (Node.proper_table.1 (ho _ rfl)))
    case h_4 =>
      split at hm
      · cases hm
      · obtain ⟨items, hitems, rfl⟩ := Option.map_eq_some_iff.1 hm
        exact Node.proper_tables.2 (proper_of_onLast ih hitems (Node.proper_tables.1 (ho _ rfl)))
    case h_5 => cases hm

theorem keeps_changeAt (hf : Keeps f) (path : List String) : Keeps (changeAt f path) := by
  induction path with
  | nil =>
    intro es es' h
    rw [changeAt] at h
    exact hf es es' h
  | cons name path ih =>
    intro es es' h
    rw [changeAt] at h
    refine keeps_alter (fun o m hm ho => ?_) es es' h
    split at hm
    case h_1 =>
      obtain ⟨sub, hsub, rfl⟩ := Option.map_eq_some_iff.1 hm
      exact Node.proper_table.2 (ih _ _ hsub .nil)
    case h_2 => cases hm
    case h_3 =>
      obtain ⟨sub, hsub, rfl⟩ := Option.map_eq_some_iff.1 hm
      exact Node.proper_table.2 (ih _ _ hsub (Node.proper_table.1 (ho _ rfl)))
    case h_4 =>
      obtain ⟨items, hitems, rfl⟩ := Option.map_eq_some_iff.1 hm
      exact Node.proper_tables.2 (proper_of_onLast ih hitems (Node.proper_tables.1 (ho _ rfl)))
    case h_5 => cases hm

theorem keeps_openTable (hf : Keeps f) : Keeps (openTable key f) :=
  keeps_alter fun o m hm ho => by
    split at hm
    case h_1 =>
      obtain ⟨sub, hsub, rfl⟩ := Option.map_eq_some_iff.1 hm
      exact Node.proper_table.2 (hf _ _ hsub .nil)
    case h_2 =>
      obtain ⟨sub, hsub, rfl⟩ := Option.map_eq_some_iff.1 hm
      exact Node.proper_table.2 (hf _ _ hsub (Node.proper_table.1 (ho _ rfl)))
    case h_3 => cases hm

theorem keeps_openNext (hf : Keeps f) : Keeps (openNext key f) :=
  keeps_alter fun o m hm ho => by
    split at hm
    case h_1 =>
      obtain ⟨sub, hsub, rfl⟩ := Option.map_eq_some_iff.1 hm
      simpa using hf _ _ hsub .nil
    case h_2 =>
      obtain ⟨sub, hsub, rfl⟩ := Option.map_eq_some_iff.1 hm
      have hitems := Node.proper_tables.1 (ho _ rfl)
      exact Node.proper_tables.2 (List.forall_mem_append.2 ⟨hitems, by simpa using hf _ _ hsub .nil⟩)
    case h_3 => cases hm

end Entries

/-- A row of changes each of which keeps names to one value. -/
theorem keeps_foldlM {α : Type} {step : Entries → α → Option Entries} {xs : List α}
    (h : ∀ x ∈ xs, Keeps (step · x)) : Keeps (fun es => xs.foldlM step es) := by
  induction xs with
  | nil =>
    intro es es' hes
    cases hes
    exact id
  | cons x xs ih =>
    intro es es' hes hp
    simp only [List.foldlM_cons] at hes
    obtain ⟨mid, hmid, hrest⟩ := Option.bind_eq_some_iff.1 hes
    obtain ⟨hx, hxs⟩ := List.forall_mem_cons.1 h
    exact ih hxs mid es' hrest (hx es mid hmid hp)

theorem keeps_fill {ps : List Pair} (h : ∀ p ∈ ps, p.node.Proper) : Keeps (fill ps) :=
  keeps_foldlM fun p hp => Entries.keeps_insertAt (h p hp) p.path

/-! ## Values that are read -/

namespace Reader

variable {α β : Type} {P : α → Prop} {Q : β → Prop}

/-- Whatever the reader takes off a text has a property. -/
def Gives (P : α → Prop) (r : Reader α) : Prop := ∀ cs a rest, r cs = some (a, rest) → P a

theorem Gives.pure {a : α} (h : P a) : Gives P (pure a) := by
  intro cs b rest hb
  cases hb
  exact h

theorem Gives.failure : Gives P failure := nofun

theorem Gives.bind {r : Reader β} {g : β → Reader α} (hr : Gives Q r) (hg : ∀ b, Q b → Gives P (g b)) :
    Gives P (r >>= g) := by
  intro cs a rest h
  obtain ⟨⟨b, mid⟩, hb, hrest⟩ := Option.bind_eq_some_iff.1 h
  exact hg b (hr cs b mid hb) mid a rest hrest

/-- What a reader gives need not be known if what follows does not depend on it. -/
theorem Gives.after {r : Reader β} {g : β → Reader α} (hg : ∀ b, Gives P (g b)) : Gives P (r >>= g) :=
  Gives.bind (Q := fun _ => True) (fun _ _ _ _ => trivial) fun b _ => hg b

theorem Gives.orElse {r r' : Reader α} (hr : Gives P r) (hr' : Gives P r') : Gives P (r <|> r') := by
  intro cs a rest h
  change (r cs <|> r' cs) = some (a, rest) at h
  rw [Option.orElse_eq_orElse, Option.orElse_eq_or, Option.or_eq_some_iff] at h
  rcases h with h | ⟨-, h⟩
  · exact hr cs a rest h
  · exact hr' cs a rest h

theorem Gives.optional {r : Reader α} (h : Gives P r) : Gives (fun o => ∀ a, o = some a → P a) (optional r) :=
  .orElse (.bind h fun _ ha => .pure fun _ he => Option.some.inj he ▸ ha) (.pure nofun)

theorem Gives.lift {o : Option α} (h : ∀ a, o = some a → P a) : Gives P (StateT.lift o) := by
  intro cs a rest hr
  obtain ⟨b, hb, he⟩ := Option.bind_eq_some_iff.1 hr
  cases he
  exact h _ hb

theorem Gives.many {step : Reader (Option α)} (h : Gives (fun o => ∀ a, o = some a → P a) step) :
    Gives (fun as => ∀ a ∈ as, P a) (many step) := by
  intro cs
  induction cs using Reader.many.induct step with
  | case1 cs hn =>
    intro as rest has
    rw [Reader.many, hn] at has
    cases has
  | case2 cs rest hs =>
    intro as rest' has
    rw [Reader.many, hs] at has
    cases has
    simp
  | case3 cs a rest hs hlt ih =>
    intro as rest' has
    rw [Reader.many, hs] at has
    simp only [hlt, if_true] at has
    obtain ⟨⟨more, end_⟩, hmore, he⟩ := Option.map_eq_some_iff.1 has
    cases he
    exact List.forall_mem_cons.2 ⟨h cs _ _ hs a rfl, ih _ _ hmore⟩
  | case4 cs a rest hs hge =>
    intro as rest' has
    rw [Reader.many, hs] at has
    simp [hge] at has

end Reader

open Reader (Gives)

theorem gives_integer (n : Int) : Gives Node.Proper (Number.integer n) := by
  unfold Number.integer
  split
  · exact .pure (.integer n)
  · exact .failure

theorem gives_float (negative : Bool) (digits : List Char) (exponent : Int) :
    Gives Node.Proper (Number.float negative digits exponent) := by
  unfold Number.float
  dsimp only
  split
  · exact .after fun _ => .pure (.float _)
  · exact .pure (.float _)

theorem gives_decimal (negative : Bool) : Gives Node.Proper (Number.decimal negative) := by
  unfold Number.decimal
  refine .after fun whole => .after fun point => ?_
  split
  · exact .after fun fraction => .after fun e => gives_float _ _ _
  · refine .after fun e => ?_
    split
    · exact gives_float _ _ _
    · exact gives_integer _

theorem gives_special (negative : Bool) : Gives Node.Proper (Number.special negative) := by
  unfold Number.special
  refine .after fun infinite => ?_
  split
  · exact .pure (.float _)
  · exact .after fun _ => .pure (.float _)

theorem gives_number : Gives Node.Proper Number.number := by
  have hbased : ∀ base p, Gives Node.Proper (Number.based base p) := fun base p =>
    .after fun ds => gives_integer _
  unfold Number.number
  refine .after fun hex => ?_
  split
  · exact hbased _ _
  refine .after fun octal => ?_
  split
  · exact hbased _ _
  refine .after fun binary => ?_
  split
  · exact hbased _ _
  refine .after fun negative => .after fun next => ?_
  split
  · exact gives_special _
  · exact gives_special _
  · exact gives_decimal _

theorem gives_moment : Gives Node.Proper Moment.moment := by
  unfold Moment.moment
  refine .after fun date => ?_
  split
  · exact .after fun time => .pure (.moment _)
  · exact .after fun time => .pure (.moment _)

theorem gives_scalar : Gives Node.Proper scalar := by
  unfold scalar
  refine .after fun next => ?_
  split
  · exact .after fun text => .pure (.string text)
  · exact .after fun text => .pure (.string text)
  · exact .after fun _ => .pure (.boolean true)
  · exact .after fun _ => .pure (.boolean false)
  · refine .bind (Q := fun m => ∀ n, m = some n → n.Proper) ?_ fun m hm => ?_
    · exact gives_moment.optional
    split
    · exact .pure (hm _ rfl)
    · exact gives_number

variable {value : Reader Node}

theorem gives_pair (h : Gives Node.Proper value) : Gives (fun p => p.node.Proper) (pair value) := by
  unfold pair
  refine .after fun key => ?_
  split
  exact .after fun _ => .after fun _ => .bind h fun node hn => .pure hn

theorem gives_array (h : Gives Node.Proper value) : Gives Node.Proper (array value) := by
  unfold array
  refine .after fun _ => .bind (Q := fun items => ∀ n ∈ items, n.Proper) (.many ?_) fun items hi =>
    .after fun _ => .pure (.array hi)
  refine .after fun _ => .after fun done => ?_
  split
  · exact .pure nofun
  · refine .bind h fun item hn => ?_
    have hitem : Gives (fun o => ∀ a, o = some a → a.Proper) (Pure.pure (some item)) :=
      .pure fun a ha => Option.some.inj ha ▸ hn
    refine .after fun _ => .after fun comma => ?_
    dsimp only
    split
    · exact hitem
    · refine .after fun closed => ?_
      split
      · exact hitem
      · exact .after fun _ => hitem

theorem gives_inlineTable (h : Gives Node.Proper value) : Gives Node.Proper (inlineTable value) := by
  unfold inlineTable
  refine .after fun _ => .after fun _ => .after fun done => ?_
  split
  · exact .pure (Node.proper_table.2 .nil)
  · refine .bind (gives_pair h) fun first hfirst => .after fun _ =>
      .bind (Q := fun ps => ∀ p ∈ ps, p.node.Proper) (.many ?_) fun more hmore => .after fun _ =>
      .bind (.lift fun es hes => ?_) fun es hes => .pure (Node.proper_table.2 hes)
    · refine .after fun comma => ?_
      split
      · exact .bind (gives_pair h) fun p hp => .after fun _ => .pure fun a ha => Option.some.inj ha ▸ hp
      · exact .pure nofun
    · exact keeps_fill (List.forall_mem_cons.2 ⟨hfirst, hmore⟩) [] es hes .nil

theorem gives_value (depth : Nat) : Gives Node.Proper (Toml.value depth) := by
  induction depth with
  | zero => exact gives_scalar
  | succ depth ih =>
    unfold Toml.value
    refine .after fun next => ?_
    split
    · exact gives_array ih
    · exact gives_inlineTable ih
    · exact gives_scalar

/-! ## Documents -/

/-- The pairs of a line. -/
def Line.pairs : Line → List Pair
  | .pair p => [p]
  | .header _ => []

theorem gives_lines : Gives (fun ls => ∀ l ∈ ls, ∀ p ∈ l.pairs, p.node.Proper) lines := by
  unfold lines
  refine .after fun _ => .many (.after fun _ => .after fun next => ?_)
  split
  · exact .pure nofun
  · exact .after fun header => .pure fun l hl => by simp [← Option.some.inj hl, Line.pairs]
  · refine .bind (gives_pair (gives_value _)) fun p hp => .after fun _ => .pure fun l hl => ?_
    simpa [← Option.some.inj hl, Line.pairs] using hp

theorem proper_of_blocks {P : Pair → Prop} {ls : List Line} (h : ∀ l ∈ ls, ∀ p ∈ l.pairs, P p) :
    (∀ p ∈ (blocks ls).1, P p) ∧ ∀ b ∈ (blocks ls).2, ∀ p ∈ b.2, P p := by
  induction ls with
  | nil => simp [blocks]
  | cons l ls ih =>
    obtain ⟨hl, hls⟩ := List.forall_mem_cons.1 h
    obtain ⟨htop, hrest⟩ := ih hls
    cases l with
    | pair p => exact ⟨List.forall_mem_cons.2 ⟨hl p (by simp [Line.pairs]), htop⟩, hrest⟩
    | header header => exact ⟨nofun, List.forall_mem_cons.2 ⟨htop, hrest⟩⟩

theorem keeps_place {b : Header × List Pair} (h : ∀ p ∈ b.2, p.node.Proper) : Keeps (place · b) := by
  have hopened : Keeps (if b.1.isItem then Entries.openNext b.1.key (fill b.2)
      else Entries.openTable b.1.key (fill b.2)) := by
    split
    · exact Entries.keeps_openNext (keeps_fill h)
    · exact Entries.keeps_openTable (keeps_fill h)
  exact Entries.keeps_changeAt hopened b.1.path

/-- A document gives each name one value, and so does every table in it. -/
theorem document?_proper {text : String} (h : document? text = some es) : es.Proper := by
  obtain ⟨ls, hls, hes⟩ := Option.bind_eq_some_iff.1 h
  have hproper : ∀ l ∈ ls, ∀ p ∈ l.pairs, p.node.Proper := by
    unfold Reader.whole? at hls
    split at hls
    next a ha => exact Option.some.inj hls ▸ gives_lines _ _ _ ha
    next => cases hls
  obtain ⟨htop, hrest⟩ := proper_of_blocks hproper
  obtain ⟨top, hfill, hplaced⟩ := Option.bind_eq_some_iff.1 hes
  exact keeps_foldlM (fun b hb => keeps_place (hrest b hb)) top es hplaced
    (keeps_fill htop [] top hfill .nil)

end RadioStream.Toml
