import Mathlib.Data.Set.Function
import RadioStream.Address.Fingerprint
import RadioStream.Proofs.Address
import RadioStream.Proofs.Lists
import RadioStream.Registry
/-!
# Fingerprints and devices

A fingerprint is texts of any length, empty ones too, one after the other and nothing else.
Each of them ends with a byte that no text contains, so the bytes tell where it ends, and
as no pair is written as nothing, they tell how many pairs there are.

`fingerprint_separates` says that addresses have the same fingerprint exactly if they mean
the same device, and that what a registry keeps of fingerprints tells devices apart as far
as it tells fingerprints apart.
-/

namespace RadioStream.Address

variable {a b : Address} {value : String}

/-! ## Texts -/

theorem toList_data_toUTF8 (s : String) : s.toUTF8.data.toList = s.toList.flatMap String.utf8EncodeChar := by
  rw [String.toUTF8_eq_toByteArray, ← String.utf8Encode_toList, List.utf8Encode, List.toList_data_toByteArray]

theorem markedBytes_eq (s : String) : markedBytes s = s.toUTF8.data.toList ++ [0xff] := by
  rw [toList_data_toUTF8, markedBytes]

/-- The first byte of a character is at most `0xf7` and each further one at most `0xbf`. -/
theorem mark_not_mem_utf8EncodeChar (c : Char) : 0xff ∉ String.utf8EncodeChar c := by
  unfold String.utf8EncodeChar
  dsimp only
  split_ifs <;>
    simp (disch := omega) only [List.mem_cons, List.not_mem_nil, or_false, ← UInt8.toNat_inj, UInt8.toNat_ofNat',
      UInt8.reduceToNat, Nat.reducePow, Nat.mod_eq_of_lt] <;>
    omega

theorem mark_not_mem_toUTF8 (s : String) : 0xff ∉ s.toUTF8.data.toList := by
  rw [toList_data_toUTF8, List.mem_flatMap]
  rintro ⟨c, -, hc⟩
  exact mark_not_mem_utf8EncodeChar c hc

theorem prefixFree_markedBytes : PrefixFree markedBytes := by
  intro s t x y h
  rw [markedBytes_eq, markedBytes_eq, List.append_assoc, List.append_assoc] at h
  obtain ⟨hbytes, hrest⟩ := append_mark_inj (mark_not_mem_toUTF8 s) (mark_not_mem_toUTF8 t) h
  exact ⟨String.toByteArray_inj.1 (ByteArray.ext (Array.toList_inj.1 hbytes)), hrest⟩

/-! ## Identifying pairs -/

/-- A fingerprint tells the identifying pairs. -/
theorem fingerprint_eq_iff : a.fingerprint = b.fingerprint ↔ a.identifyingPairs = b.identifyingPairs := by
  have hfree : PrefixFree fun p : String × String => markedBytes p.1 ++ markedBytes p.2 :=
    prefixFree_markedBytes.append prefixFree_markedBytes
  have hne : ∀ p : String × String, markedBytes p.1 ++ markedBytes p.2 ≠ [] := by simp [markedBytes]
  exact (hfree.flatMap_injective hne).eq_iff

theorem identifyingPairs_of_some (h : a.get? "resource" = some value) :
    a.identifyingPairs = [("resource", value)] := by
  rw [identifyingPairs, h]

theorem identifyingPairs_of_none (h : a.get? "resource" = none) :
    a.identifyingPairs = a.pairs.filter fun p => !usageKeys.contains p.1 := by
  rw [identifyingPairs, h]

/-- The identifying pairs tell whether there is a resource, as no other pair has its key. -/
theorem resource_mem_identifyingPairs :
    ("resource", value) ∈ a.identifyingPairs ↔ a.get? "resource" = some value := by
  cases h : a.get? "resource" with
  | some v => simp [identifyingPairs_of_some h, eq_comm]
  | none =>
    have hnot : ("resource", value) ∉ a.pairs := fun hmem => by
      have hget := get?_eq_some_iff.2 hmem
      rw [h] at hget
      cases hget
    simp [identifyingPairs_of_none h, hnot]

/-- The pairs without usage keys are in key order, so they are equal lists if they are the
same pairs. -/
theorem filter_usageKeys_eq_iff :
    (a.pairs.filter fun p => !usageKeys.contains p.1) = (b.pairs.filter fun p => !usageKeys.contains p.1) ↔
      ∀ p : String × String, p.1 ∉ usageKeys → (p ∈ a.pairs ↔ p ∈ b.pairs) := by
  constructor
  · intro h p hp
    have hmem : p ∈ a.pairs.filter (fun p => !usageKeys.contains p.1) ↔
        p ∈ b.pairs.filter fun p => !usageKeys.contains p.1 := by rw [h]
    rw [List.mem_filter, List.mem_filter] at hmem
    exact and_congr_left_iff.1 hmem (by simpa using hp)
  · intro h
    apply eq_of_mem_iff (a.sorted.filter _) (b.sorted.filter _)
    intro p
    rw [List.mem_filter, List.mem_filter]
    exact and_congr_left fun hp => h p (by simpa using hp)

/-! ## Devices -/

/-- Two addresses mean the same device: both name the same resource, or neither names one
and they have the same pairs but for those that say how the device is used. -/
inductive SameDevice (a b : Address) : Prop
  | resource (value : String) (left : a.get? "resource" = some value) (right : b.get? "resource" = some value)
  | pairs (left : a.get? "resource" = none) (right : b.get? "resource" = none)
      (agree : ∀ p : String × String, p.1 ∉ usageKeys → (p ∈ a.pairs ↔ p ∈ b.pairs))

theorem identifyingPairs_eq_iff : a.identifyingPairs = b.identifyingPairs ↔ a.SameDevice b := by
  constructor
  · intro h
    have hresource : a.get? "resource" = b.get? "resource" := Option.ext fun v => by
      rw [← resource_mem_identifyingPairs, h, resource_mem_identifyingPairs]
    cases ha : a.get? "resource" with
    | some v => exact .resource v ha (hresource.symm.trans ha)
    | none =>
      have hb := hresource.symm.trans ha
      rw [identifyingPairs_of_none ha, identifyingPairs_of_none hb] at h
      exact .pairs ha hb (filter_usageKeys_eq_iff.1 h)
  · rintro (⟨v, ha, hb⟩ | ⟨ha, hb, hagree⟩)
    · rw [identifyingPairs_of_some ha, identifyingPairs_of_some hb]
    · rw [identifyingPairs_of_none ha, identifyingPairs_of_none hb]
      exact filter_usageKeys_eq_iff.2 hagree

instance : Decidable (a.SameDevice b) := decidable_of_iff _ identifyingPairs_eq_iff

/-- A fingerprint is the texts of the identifying pairs, each as its bytes in UTF-8 and a
mark. Two of them are equal exactly if the addresses mean the same device, and so is what a
registry keeps of them, among fingerprints of which it keeps different things. What is kept
may have a fixed size, so this cannot be asked for all byte strings. -/
theorem fingerprint_separates {δ σ : Type} (a b : Address) :
    a.fingerprint = (a.identifyingPairs.flatMap fun p => [p.1, p.2]).flatMap (fun s => s.toUTF8.data.toList ++ [0xff]) ∧
      (a.fingerprint = b.fingerprint ↔ a.SameDevice b) ∧
      ∀ (r : Registry δ σ) (apart : Set Bytes), apart.InjOn r.digest → a.fingerprint ∈ apart → b.fingerprint ∈ apart →
        (r.identityOf a = r.identityOf b ↔ a.SameDevice b) := by
  have hsame : a.fingerprint = b.fingerprint ↔ a.SameDevice b := fingerprint_eq_iff.trans identifyingPairs_eq_iff
  refine ⟨?_, hsame, fun r apart hinj ha hb => (hinj.eq_iff ha hb).trans hsame⟩
  simp only [fingerprint, List.flatMap_assoc, List.flatMap_cons, List.flatMap_nil, List.append_nil, markedBytes_eq]

/-- An empty key with a value, and the value as a key with an empty value: without marks the
bytes would be the same. The registry keeps 64 bits, which other fingerprints have too. -/
theorem fingerprint_separates_empty :
    let r : Registry Unit Unit := { digest := fun bs => bigEndian 8 (bs.foldl (fun n x => 31 * n + x.toNat) 0) }
    let a : Address := .ofPairs [("", "sim"), ("claimed", "1")]
    let b : Address := .ofPairs [("sim", "")]
    let apart : Set Bytes := {a.fingerprint, b.fingerprint}
    apart.InjOn r.digest ∧ a.fingerprint ∈ apart ∧ b.fingerprint ∈ apart ∧
      (r.identityOf a = r.identityOf b ↔ a.SameDevice b) ∧ ¬a.SameDevice b := by
  intro r a b apart
  have hdigest : r.digest a.fingerprint ≠ r.digest b.fingerprint := by decide
  have hapart : apart.InjOn r.digest := Set.injOn_pair.2 fun h => absurd h hdigest
  have ha : a.fingerprint ∈ apart := Set.mem_insert _ _
  have hb : b.fingerprint ∈ apart := Set.mem_insert_of_mem _ rfl
  have hiff := (fingerprint_separates a b).2.2 r apart hapart ha hb
  exact ⟨hapart, ha, hb, hiff, fun h => hdigest (hiff.2 h)⟩

/-- Order and usage do not matter, and with a resource nothing else does. -/
example : (ofText "type=sim,serial=sim0").SameDevice (ofText "serial=sim0,type=sim,claimed=1,skip_ddc=1") ∧
    ¬(ofText "type=sim,serial=sim0").SameDevice (ofText "type=sim,serial=sim1") ∧
    (ofText "resource=RIO0,type=x").SameDevice (ofText "resource=RIO0,serial=1234") := by decide

end RadioStream.Address
