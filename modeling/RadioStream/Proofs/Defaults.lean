import Mathlib.Data.List.Nodup
import RadioStream.Defaults
import RadioStream.Proofs.Address
import RadioStream.Proofs.Lists
import RadioStream.Proofs.Text.ByteOrder
import RadioStream.Proofs.Toml
/-!
# What defaults say

Which sections the tables of a document make, in which order, and what each of them says
of a key (`MadeOf`). An address completed with defaults says of a key what the first says
that has it: the address, its sections in their order, the defaults for all.
-/

namespace RadioStream.Defaults

open Toml (Node Entries)

variable {d : Defaults} {es : Entries} {tables : List (String × Entries)} {text name : String}

/-! ## Named things in order -/

section InNameOrder

variable {α : Type} {xs : List (String × α)}

theorem perm_inNameOrder (xs : List (String × α)) : (inNameOrder xs).Perm xs := List.mergeSort_perm xs _

/-- A form of the order that computes. -/
theorem inNameOrder_eq_insertionSort (xs : List (String × α)) :
    inNameOrder xs = xs.insertionSort fun a b => decide (¬ b.1 < a.1) :=
  mergeSort_eq_insertionSort not_lt_trans not_lt_total xs

/-- Things with different names are in strict order. -/
theorem inNameOrder_strict (h : (xs.map (·.1)).Nodup) : (inNameOrder xs).Pairwise fun a b => a.1 < b.1 := by
  have hle := List.pairwise_mergeSort not_lt_trans not_lt_total xs
  have hnodup : ((inNameOrder xs).map (·.1)).Nodup := ((perm_inNameOrder xs).map _).nodup_iff.2 h
  refine List.Pairwise.imp_of_mem (fun _ _ hab => ?_) (hle.and (List.pairwise_map.1 hnodup))
  by_contra hlt
  exact hab.2 (String.le_antisymm (of_decide_eq_true hab.1) hlt)

end InNameOrder

/-! ## Tables -/

theorem proper_of_entries? {n : Node} (h : entries? n = some es) (hn : n.Proper) : es.Proper := by
  unfold entries? at h
  split at h
  · cases h
    exact Node.proper_table.1 hn
  · cases h
    exact ⟨List.nodup_singleton _, by simpa using .string _⟩
  · cases h

theorem tables_of_mapM {es : Entries} (h : es.mapM (fun (name, n) => (entries? n).map (name, ·)) = some tables) :
    tables.map (·.1) = es.map (·.1) ∧ ∀ t ∈ tables, ∃ e ∈ es, entries? e.2 = some t.2 := by
  induction es generalizing tables with
  | nil =>
    cases h
    exact ⟨rfl, nofun⟩
  | cons e es ih =>
    rw [List.mapM_cons] at h
    obtain ⟨t, ht, h⟩ := Option.bind_eq_some_iff.1 h
    obtain ⟨ts, hts, h⟩ := Option.bind_eq_some_iff.1 h
    obtain ⟨sub, hsub, rfl⟩ := Option.map_eq_some_iff.1 ht
    cases h
    obtain ⟨hnames, hall⟩ := ih hts
    refine ⟨by rw [List.map_cons, List.map_cons, hnames], List.forall_mem_cons.2 ⟨⟨e, List.mem_cons_self, hsub⟩, ?_⟩⟩
    intro t ht
    obtain ⟨e', he, he'⟩ := hall t ht
    exact ⟨e', List.mem_cons_of_mem _ he, he'⟩

/-- The tables of a document have different names, and so have the entries of each. -/
theorem names_of_tablesOf (h : tablesOf text = .ok tables) :
    (tables.map (·.1)).Nodup ∧ ∀ t ∈ tables, (t.2.map (·.1)).Nodup := by
  unfold tablesOf at h
  dsimp only at h
  split at h
  next ts hts =>
    cases h
    obtain ⟨top, htop, hmap⟩ := Option.bind_eq_some_iff.1 hts
    have hproper := Toml.document?_proper htop
    obtain ⟨hnames, hall⟩ := tables_of_mapM hmap
    refine ⟨hnames ▸ hproper.names, fun t ht => ?_⟩
    obtain ⟨e, he, hes⟩ := hall t ht
    exact (proper_of_entries? hes (hproper.values e he)).names
  next => cases h

/-! ## Arguments -/

/-- Values put under different keys, one after the other. -/
theorem get?_of_foldlM {step : Address → String × Node → Except Error Address}
    (hstep : ∀ a e b, step a e = .ok b → ∃ text, scalarText? e.2 = some text ∧ b = a.insert e.1 text)
    {a b : Address} (h : es.foldlM step a = .ok b) (hes : (es.map (·.1)).Nodup) (key : String) :
    b.get? key = ((es.lookup key).bind scalarText?).or (a.get? key) := by
  induction es generalizing a with
  | nil =>
    cases h
    rfl
  | cons e es ih =>
    obtain ⟨hkey, hnames⟩ := List.nodup_cons.1 hes
    rw [List.foldlM_cons] at h
    obtain ⟨mid, hmid, hrest⟩ := bind_eq_ok h
    obtain ⟨text, ht, rfl⟩ := hstep a e mid hmid
    rw [ih hrest hnames, List.lookup_cons, Address.get?_insert]
    by_cases hk : key = e.1
    · -- nothing after it has its name
      have hnone : es.lookup e.1 = none := List.lookup_eq_none_iff.2 fun p hp =>
        bne_iff_ne.2 fun he => hkey (List.mem_map.2 ⟨p, hp, he.symm⟩)
      simp [hk, hnone, ht]
    · rw [if_neg hk, beq_eq_false_iff_ne.2 hk]

/-- The arguments of a table say of a key what its entry says. -/
theorem get?_of_arguments {a : Address} (h : arguments name es = .ok a) (hes : (es.map (·.1)).Nodup)
    (key : String) : a.get? key = (es.lookup key).bind scalarText? := by
  have hperm := perm_inNameOrder es
  refine (get?_of_foldlM (fun a e b hb => ?_) h ((hperm.map _).nodup_iff.2 hes) key).trans ?_
  · dsimp only at hb
    split at hb
    next text ht =>
      cases hb
      exact ⟨text, ht, rfl⟩
    next => cases hb
  · rw [Address.get?_empty, Option.or_none, lookup_eq_of_perm hperm.symm hes]

/-! ## Sections -/

/-- How the tables of a document make defaults: the sections, each with the name of its
table, and what is for every device. -/
structure MadeOf (d : Defaults) (tables : List (String × Entries)) (named : List (String × Section)) : Prop where
  sections : d.sections = named.map (·.2)
  /-- The sections are in the order of the bytes of their names. -/
  ordered : named.Pairwise fun a b => Text.bytes a.1 < Text.bytes b.1
  /-- There is one for each table but the one for all devices. -/
  names : ∀ name, name ∈ named.map (·.1) ↔ name ∈ tables.map (·.1) ∧ name ≠ "defaults"
  /-- A section has its key and its value from its name, and its arguments from its table. -/
  made : ∀ p ∈ named, ∃ es key value, tables.lookup p.1 = some es ∧ Text.cut '=' p.1.toList = some (key, value) ∧
    p.2.key = String.ofList (Text.trim key) ∧ p.2.value = String.ofList (Text.trim value) ∧
    ∀ k, p.2.args.get? k = (es.lookup k).bind scalarText?
  global : ∀ k, d.global.get? k = (((tables.lookup "defaults").getD []).lookup k).bind scalarText?

theorem named_of_forall₂ {ts : List (String × Entries)} {ss : List Section}
    (h : List.Forall₂ (fun t s => sectionOf t.1 t.2 = .ok s) ts ss) :
    ∃ named : List (String × Section), ss = named.map (·.2) ∧ named.map (·.1) = ts.map (·.1) ∧
      ∀ p ∈ named, ∃ es, (p.1, es) ∈ ts ∧ sectionOf p.1 es = .ok p.2 := by
  induction h with
  | nil => exact ⟨[], rfl, rfl, nofun⟩
  | @cons t s ts ss hs _ ih =>
    obtain ⟨named, rfl, hnames, hall⟩ := ih
    refine ⟨(t.1, s) :: named, rfl, by rw [List.map_cons, List.map_cons, hnames],
      List.forall_mem_cons.2 ⟨⟨t.2, List.mem_cons_self, hs⟩, fun p hp => ?_⟩⟩
    obtain ⟨es, hes, hp'⟩ := hall p hp
    exact ⟨es, List.mem_cons_of_mem _ hes, hp'⟩

/-- A section has its key and its value from its name. -/
theorem parts_of_sectionOf {s : Section} (h : sectionOf name es = .ok s) :
    ∃ key value, Text.cut '=' name.toList = some (key, value) ∧ s.key = String.ofList (Text.trim key) ∧
      s.value = String.ofList (Text.trim value) ∧ arguments name es = .ok s.args := by
  unfold sectionOf at h
  split at h
  next => cases h
  next key value hcut =>
    obtain ⟨args, hargs, h⟩ := bind_eq_ok h
    cases h
    exact ⟨key, value, hcut, rfl, rfl, hargs⟩

theorem madeOf_of_ofText (h : ofText text = .ok d) :
    ∃ tables named, tablesOf text = .ok tables ∧ d.MadeOf tables named := by
  obtain ⟨tables, ht, h⟩ := bind_eq_ok h
  obtain ⟨global, hglobal, h⟩ := bind_eq_ok h
  obtain ⟨sections, hsections, h⟩ := bind_eq_ok h
  cases h
  obtain ⟨hnames, hentries⟩ := names_of_tablesOf ht
  obtain ⟨named, rfl, hnamed, hmade⟩ := named_of_forall₂ (forall₂_of_mapM hsections)
  have hperm := perm_inNameOrder (tables.filter (·.1 != "defaults"))
  have hmem : ∀ {t}, t ∈ inNameOrder (tables.filter (·.1 != "defaults")) ↔ t ∈ tables ∧ t.1 ≠ "defaults" := by
    intro t
    rw [hperm.mem_iff, List.mem_filter, bne_iff_ne]
  refine ⟨tables, named, ht, rfl, ?_, fun name => ?_, fun p hp => ?_, fun k => ?_⟩
  · have hkept : ((tables.filter (·.1 != "defaults")).map (·.1)).Nodup :=
      hnames.sublist (List.filter_sublist.map _)
    have hstrict := inNameOrder_strict hkept
    have hlt : (named.map (·.1)).Pairwise (· < ·) := hnamed ▸ List.pairwise_map.2 hstrict
    exact (List.pairwise_map.1 hlt).imp fun h => Text.bytes_lt_iff.2 h
  · rw [hnamed, List.mem_map, List.mem_map]
    constructor
    · rintro ⟨t, hmt, rfl⟩
      obtain ⟨htables, hne⟩ := hmem.1 hmt
      exact ⟨⟨t, htables, rfl⟩, hne⟩
    · rintro ⟨⟨t, htables, rfl⟩, hne⟩
      exact ⟨t, hmem.2 ⟨htables, hne⟩, rfl⟩
  · obtain ⟨es, hes, hsection⟩ := hmade p hp
    obtain ⟨htables, -⟩ := hmem.1 hes
    obtain ⟨key, value, hcut, hkey, hvalue, hargs⟩ := parts_of_sectionOf hsection
    exact ⟨es, key, value, (lookup_eq_some_iff hnames).2 htables, hcut, hkey, hvalue,
      get?_of_arguments hargs (hentries _ htables)⟩
  · refine get?_of_arguments hglobal ?_ k
    cases hd : tables.lookup "defaults" with
    | none => exact List.nodup_nil
    | some es => exact hentries _ ((lookup_eq_some_iff hnames).1 hd)

/-! ## Addresses -/

theorem get?_apply (d : Defaults) (a : Address) (key : String) :
    (d.apply a).get? key =
      (a :: (d.sections.filter (·.isFor a)).map (·.args) ++ [d.global]).findSome? (·.get? key) := by
  have happly : d.apply a = ((d.sections.filter (·.isFor a)).map (·.args) ++ [d.global]).foldl Address.fillFrom a := by
    rw [List.foldl_append, List.foldl_map]
    rfl
  rw [happly, Address.get?_foldl_fillFrom]
  rfl

end RadioStream.Defaults
