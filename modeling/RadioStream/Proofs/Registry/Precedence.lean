import RadioStream.Proofs.Defaults
import RadioStream.Proofs.Registry.Discovery
/-!
# The arguments of a new session

A device is made with the address it was found by, completed with the hint and then with
defaults. Of each key the first of these counts that has it: the address, the hint, the
sections in the order of their names, the defaults for all. A section takes part if its
pair is in the address or, for a key that the address lacks, in the hint; what a section or
the defaults add makes no other section take part.
-/

namespace RadioStream

variable {δ σ : Type}

/-- Whether the pair of a section is in an address completed with a hint. -/
def Section.isMeant (s : Section) (found hint : Address) : Bool :=
  (found.get? s.key).or (hint.get? s.key) == some s.value

namespace Registry

/-- What a device is made with. -/
structure Precedence (r : Registry δ σ) (c : Candidate δ σ) (hint : Address) (d : Defaults)
    (named : List (String × Section)) : Prop where
  /-- Each key has the value of the first that has the key, and no other key has one. -/
  value : ∀ key, (r.arguments c).get? key =
    (c.found :: hint :: (named.filter (·.2.isMeant c.found hint)).map (·.2.args) ++ [d.global]).findSome? (·.get? key)
  /-- These are the arguments of a session that is not in use. -/
  made : ∀ s, r.session? c.identity = none →
    (r.acquire c s).1.map (·.device) = (c.family.make (r.arguments c) s).1 ∧
      (r.acquire c s).2.2 = (c.family.make (r.arguments c) s).2

theorem acquire_of_session?_eq_none {r : Registry δ σ} {c : Candidate δ σ} (h : r.session? c.identity = none) (s : σ) :
    (r.acquire c s).1.map (·.device) = (c.family.make (r.arguments c) s).1 ∧
      (r.acquire c s).2.2 = (c.family.make (r.arguments c) s).2 := by
  unfold acquire
  rw [h]
  rcases c.family.make (r.arguments c) s with ⟨_ | device, s'⟩
  · exact ⟨rfl, rfl⟩
  · exact ⟨rfl, rfl⟩

/-- Precedence of arguments, for the defaults of any document. The registry may have changed
between the search and the making of the device. -/
theorem arguments_precedence {text : String} {d : Defaults} (hd : Defaults.ofText text = .ok d)
    {r₀ r : Registry δ σ} (hr : r.complete = d.apply) {hint : Address} {kind : DeviceKind} {which : Nat}
    {c : Candidate δ σ} (hc : r₀.choose hint kind which = .ok c) :
    ∃ tables named, Defaults.tablesOf text = .ok tables ∧ d.MadeOf tables named ∧ r.Precedence c hint d named := by
  obtain ⟨tables, named, ht, hmade⟩ := Defaults.madeOf_of_ofText hd
  refine ⟨tables, named, ht, hmade, fun key => ?_, fun s hs => acquire_of_session?_eq_none hs s⟩
  have hfor : ∀ s : Section, s.isFor (c.found.fillFrom hint) = s.isMeant c.found hint := fun s => by
    rw [Section.isFor, Address.get?_fillFrom, Section.isMeant]
  have haddress : c.address = c.found.fillFrom hint := by
    obtain ⟨p, -, rfl⟩ := choose_eq_ok_iff.1 hc
    rfl
  rw [arguments, hr, haddress, Defaults.get?_apply, hmade.sections, List.filter_map, List.map_map]
  simp only [Function.comp_def, hfor, List.cons_append, List.findSome?_cons, Address.get?_fillFrom]
  cases c.found.get? key with
  | some v => rfl
  | none => rfl

/-- Two sections are for the device and have a key in common; a third is for a value that
only another section gives. -/
theorem arguments_precedence_overlapping :
    let text := "[\"b=1\"]\nk='2'\nn='x'\n[\"a=1\"]\nk='3'\n[\"n=x\"]\nm='f'\n[defaults]\nm='s'\n"
    let d : Defaults := {
      global := .ofPairs [("m", "s")]
      sections := [⟨"a", "1", .ofPairs [("k", "3")]⟩, ⟨"b", "1", .ofPairs [("k", "2"), ("n", "x")]⟩,
        ⟨"n", "x", .ofPairs [("m", "f")]⟩] }
    let family : Family Unit Address :=
      { find := fun _ => .ok [.ofPairs [("a", "1")]], make := fun a _ => (.ok (), a), kind := .usrp }
    let r : Registry Unit Address := { families := [family], complete := d.apply }
    Defaults.ofText text = .ok d ∧ ∃ c, r.choose (.ofPairs [("b", "1")]) .any 0 = .ok c ∧
      r.arguments c = .ofPairs [("a", "1"), ("b", "1"), ("k", "3"), ("n", "x"), ("m", "s")] ∧
      ∃ tables named, Defaults.tablesOf text = .ok tables ∧ d.MadeOf tables named ∧
        r.Precedence c (.ofPairs [("b", "1")]) d named := by
  intro text d family r
  have hd : Defaults.ofText text = .ok d := by
    -- a sort by merging does not unfold in the kernel, one by inserting does
    simp only [Defaults.ofText, Defaults.sectionOf, Defaults.arguments, Defaults.inNameOrder_eq_insertionSort, text, d]
    decide +kernel
  have hc : r.choose (.ofPairs [("b", "1")]) .any 0 = .ok {
      found := .ofPairs [("a", "1")]
      identity := r.identityOf (.ofPairs [("a", "1")])
      address := (Address.ofPairs [("a", "1")]).fillFrom (.ofPairs [("b", "1")])
      family } := rfl
  exact ⟨hd, _, hc, by decide, arguments_precedence hd rfl hc⟩

end Registry

end RadioStream
