/-!
# Bytes and big-endian numbers

Byte strings are lists. `bigEndian k n` writes the last `8 k` bits of a number
in `k` bytes, most significant first, and `ofBigEndian` reads them back. `splice`
writes a byte string over a part of another one.
-/

namespace RadioStream

/-- A byte string. -/
abbrev Bytes := List UInt8

/-- A number in `k` bytes, most significant first. -/
def bigEndian : Nat → Nat → Bytes
  | 0, _ => []
  | k + 1, n => bigEndian k (n / 256) ++ [UInt8.ofNat n]

/-- The number that a byte string writes, most significant byte first. -/
def ofBigEndian (bs : Bytes) : Nat := bs.foldl (fun acc b => 256 * acc + b.toNat) 0

/-- Puts a list over the elements of another one from a position on; the length
stays as long as the first list fits. -/
def splice {α : Type} (target : List α) (position : Nat) (source : List α) : List α :=
  target.take position ++ source ++ target.drop (position + source.length)

@[simp] theorem length_bigEndian (k n : Nat) : (bigEndian k n).length = k := by
  induction k generalizing n with
  | zero => rfl
  | succ k ih => simp [bigEndian, ih]

@[simp] theorem ofBigEndian_append_singleton (bs : Bytes) (b : UInt8) :
    ofBigEndian (bs ++ [b]) = 256 * ofBigEndian bs + b.toNat := by
  simp [ofBigEndian]

/-- At the start of a list. -/
theorem splice_start {α : Type} (target source : List α) :
    splice target 0 source = source ++ target.drop source.length := by
  rw [splice, List.take_zero, List.nil_append, Nat.zero_add]

theorem length_splice {α : Type} {target source : List α} {position : Nat}
    (h : position + source.length ≤ target.length) :
    (splice target position source).length = target.length := by
  simp only [splice, List.length_append, List.length_take, List.length_drop]
  omega

end RadioStream
