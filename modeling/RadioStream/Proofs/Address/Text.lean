import RadioStream.Proofs.Address
import RadioStream.Proofs.Text.Pieces
/-!
# Reading and writing an address

A text with a comma in it is read as its two parts are, the second one taking precedence.

Reading gives legible pairs: key and value are trimmed, neither has a comma, and the key has
no equals sign. Each of these pairs is written as a piece that is read as the pair again, with
one exception: the pair of an empty key and an empty value is written as nothing, and a blank
piece is passed over. So this is the pair that an address loses when it is written and read.
-/

namespace RadioStream.Address

variable {token : List Char} {p : String × String} {key value : List Char} {a : Address}

/-! ## Pieces -/

theorem pairOfToken_blank (h : Text.trim token = []) : pairOfToken token = none := by
  rw [pairOfToken, h]

theorem pairOfToken_pair (h : Text.cut '=' (Text.trim token) = some (key, value)) :
    pairOfToken token = some (String.ofList (Text.trim key), String.ofList (Text.trim value)) := by
  unfold pairOfToken
  split
  next hnil => rw [hnil] at h; cases h
  next => rw [h]

theorem pairOfToken_bare (hne : Text.trim token ≠ []) (h : '=' ∉ Text.trim token) :
    pairOfToken token = some (String.ofList (Text.trim token), "") := by
  unfold pairOfToken
  split
  next hnil => exact absurd hnil hne
  next => rw [Text.cut_eq_none_iff.2 h]

/-- What a text can say as a pair. -/
structure Legible (p : String × String) : Prop where
  key_trimmed : Text.trim p.1.toList = p.1.toList
  value_trimmed : Text.trim p.2.toList = p.2.toList
  equals_not_mem : '=' ∉ p.1.toList
  comma_not_mem_key : ',' ∉ p.1.toList
  comma_not_mem_value : ',' ∉ p.2.toList

/-- A piece between commas is read as a legible pair. -/
theorem Legible.of_token (h : pairOfToken token = some p) (hcomma : ',' ∉ token) : Legible p := by
  have htrim : ',' ∉ Text.trim token := Text.not_mem_trim hcomma
  by_cases hnil : Text.trim token = []
  · rw [pairOfToken_blank hnil] at h
    cases h
  cases hcut : Text.cut '=' (Text.trim token) with
  | none =>
    have hequals := Text.cut_eq_none_iff.1 hcut
    rw [pairOfToken_bare hnil hequals] at h
    cases h
    constructor <;> simp [htrim, hequals]
  | some parts =>
    obtain ⟨key, value⟩ := parts
    obtain ⟨hequals, htoken⟩ := Text.cut_eq_some_iff.1 hcut
    rw [htoken, List.mem_append, List.mem_cons, not_or, not_or] at htrim
    rw [pairOfToken_pair hcut] at h
    cases h
    constructor <;> simp [Text.not_mem_trim, htrim, hequals]

theorem pairText_of_empty (h : p.2 = "") : pairText p = p.1 := by
  rw [pairText, h]
  rfl

theorem toList_pairText (h : p.2 ≠ "") : (pairText p).toList = p.1.toList ++ '=' :: p.2.toList := by
  rw [pairText, if_neg (by simpa using h), String.toList_append, String.toList_append, List.append_assoc]
  rfl

theorem Legible.comma_not_mem (h : Legible p) : ',' ∉ (pairText p).toList := by
  by_cases hvalue : p.2 = ""
  · rw [pairText_of_empty hvalue]
    exact h.comma_not_mem_key
  · rw [toList_pairText hvalue, List.mem_append, List.mem_cons]
    simp [h.comma_not_mem_key, h.comma_not_mem_value]

/-- A legible pair is read as it was written, unless nothing was written. -/
theorem Legible.pairOfToken_pairText (h : Legible p) :
    pairOfToken (pairText p).toList = if p = ("", "") then none else some p := by
  obtain ⟨k, v⟩ := p
  by_cases hv : v = ""
  · subst hv
    rw [pairText_of_empty rfl]
    by_cases hk : k = ""
    · subst hk
      rfl
    · have hkey : Text.trim k.toList = k.toList := h.key_trimmed
      have hne : k.toList ≠ [] := by simpa using hk
      rw [pairOfToken_bare (by rwa [hkey]) (by rw [hkey]; exact h.equals_not_mem), hkey, String.ofList_toList,
        if_neg (by simp [hk])]
  · have htrim : Text.trim (pairText (k, v)).toList = k.toList ++ '=' :: v.toList := by
      rw [toList_pairText hv]
      exact Text.trim_append_cons rfl h.key_trimmed h.value_trimmed
    have hcut : Text.cut '=' (Text.trim (pairText (k, v)).toList) = some (k.toList, v.toList) := by
      rw [htrim]
      exact Text.cut_eq_some_iff.2 ⟨h.equals_not_mem, rfl⟩
    rw [pairOfToken_pair hcut, h.key_trimmed, h.value_trimmed, if_neg (by simp [hv])]
    simp

/-! ## Addresses -/

/-- The pairs that the pieces of a text stand for, in the order of the text. -/
theorem ofText_eq (s : String) : ofText s = ofPairs ((Text.split ',' s.toList).filterMap pairOfToken) := rfl

theorem legible_ofText (s : String) : ∀ p ∈ (ofText s).pairs, Legible p := by
  intro p hp
  obtain ⟨token, htoken, hpair⟩ := List.mem_filterMap.1 (mem_of_mem_ofPairs hp)
  exact Legible.of_token hpair (Text.not_mem_of_mem_split htoken)

/-- The pieces of pairs written with commas between them are the pairs written. -/
theorem split_text (hne : a.pairs ≠ []) (h : ∀ p ∈ a.pairs, Legible p) :
    Text.split ',' a.text.toList = a.pairs.map fun p => (pairText p).toList := by
  rw [text, String.toList_intercalate, List.map_map]
  apply Text.split_intercalate
  · simpa using hne
  · intro piece hpiece
    obtain ⟨p, hp, rfl⟩ := List.mem_map.1 hpiece
    exact (h p hp).comma_not_mem

theorem filterMap_pairOfToken {ps : List (String × String)} (h : ∀ p ∈ ps, Legible p) :
    (ps.map fun p => (pairText p).toList).filterMap pairOfToken = ps.filter (· ≠ ("", "")) := by
  induction ps with
  | nil => rfl
  | cons p ps ih =>
    rw [List.map_cons, List.filterMap_cons, (h p List.mem_cons_self).pairOfToken_pairText,
      ih fun q hq => h q (List.mem_cons_of_mem p hq), List.filter_cons]
    by_cases hp : p = ("", "")
    · simp [hp]
    · simp [hp]

/-- An address of legible pairs that is written and read loses the pair of empty texts only. -/
theorem pairs_ofText_text (h : ∀ p ∈ a.pairs, Legible p) :
    (ofText a.text).pairs = a.pairs.filter (· ≠ ("", "")) := by
  have hread : (Text.split ',' a.text.toList).filterMap pairOfToken = a.pairs.filter (· ≠ ("", "")) := by
    by_cases hne : a.pairs = []
    · rw [text, hne]
      rfl
    · rw [split_text hne h, filterMap_pairOfToken h]
  rw [ofText_eq, hread]
  exact pairs_ofPairs (a.sorted.filter _)

/-- The pairs without the one of empty texts are those without an empty key, if the empty
key has the empty value, and all of them otherwise. -/
theorem filter_pairs (a : Address) :
    a.pairs.filter (· ≠ ("", "")) = (if a.get? "" = some "" then a.erase "" else a).pairs := by
  split
  next h =>
    apply List.filter_congr
    intro p hp
    have hvalue : p.1 = "" → p = ("", "") := fun hk => by
      have hget := get?_eq_some_iff.2 (show (p.1, p.2) ∈ a.pairs from hp)
      rw [hk, h] at hget
      exact Prod.ext hk (Option.some.inj hget).symm
    by_cases hk : p.1 = ""
    · simp [hvalue hk]
    · have hne : p ≠ ("", "") := fun heq => hk (congrArg Prod.fst heq)
      simp [hk, hne]
  next h =>
    apply List.filter_eq_self.2
    rintro p hp
    have hne : p ≠ ("", "") := fun heq => h (get?_eq_some_iff.2 (heq ▸ hp))
    simpa using hne

/-- Two texts with a comma between them are read as the second one completed with the first:
each key has the value of the last piece that names it. -/
theorem ofText_append_comma (s t : String) :
    ofText (s ++ "," ++ t) = (ofText t).fillFrom (ofText s) ∧
      ∀ key, (ofText (s ++ "," ++ t)).get? key =
        (((Text.split ',' (s ++ "," ++ t).toList).filterMap pairOfToken).reverse.find? (·.1 == key)).map (·.2) := by
  have htext : (s ++ "," ++ t).toList = s.toList ++ ',' :: t.toList := by
    rw [String.toList_append, String.toList_append, List.append_assoc]
    rfl
  constructor
  · apply ext_get?
    intro key
    rw [ofText_eq, htext, Text.split_append, List.filterMap_append, get?_ofPairs_append, get?_fillFrom]
    rfl
  · intro key
    exact get?_ofPairs _ key

/-- What a text was read as is the same after it is written and read once more, but for an
empty key with an empty value, which is gone. -/
theorem ofText_text_ofText (s : String) :
    ofText (ofText s).text = (if (ofText s).get? "" = some "" then (ofText s).erase "" else ofText s) ∧
      (ofText (ofText s).text = ofText s ↔ (ofText s).get? "" ≠ some "") := by
  have hread : ofText (ofText s).text = if (ofText s).get? "" = some "" then (ofText s).erase "" else ofText s := by
    apply ext
    rw [pairs_ofText_text (legible_ofText s), filter_pairs]
  refine ⟨hread, ?_⟩
  constructor
  · intro hsame hblank
    rw [if_pos hblank] at hread
    have hgone : ((ofText s).erase "").get? "" = some "" := by rw [← hread, hsame, hblank]
    have hmem := get?_eq_some_iff.1 hgone
    simp [erase] at hmem
  · intro hkept
    rw [hread, if_neg hkept]

/-- A lone equals sign is read as the pair of empty texts, which does not come back. -/
theorem ofText_text_ofText_equals :
    (ofText "=").pairs = [("", "")] ∧ ofText (ofText "=").text ≠ ofText "=" := by
  have hpairs : (ofText "=").pairs = [("", "")] := by decide
  refine ⟨hpairs, ?_⟩
  intro hsame
  have hkept := (ofText_text_ofText "=").2.1 hsame
  exact hkept (get?_eq_some_iff.2 (hpairs ▸ List.mem_cons_self))

end RadioStream.Address
