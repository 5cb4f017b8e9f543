import Mathlib.Data.List.Basic

namespace Chunks

variable {α : Type*} {size i n : Nat} {xs : List α}

def count (size : Nat) (xs : List α) : Nat := (xs.length + size - 1) / size

def chunk (size : Nat) (xs : List α) (i : Nat) : List α := (xs.drop (size * i)).take size

/-- `slice::chunks`: pieces of the given size, the last one possibly shorter. -/
def chunks (size : Nat) (xs : List α) : List (List α) :=
  (List.range (count size xs)).map (chunk size xs)

@[simp] theorem length_chunks : (chunks size xs).length = count size xs := by simp [chunks]

theorem count_pos (hs : 0 < size) (hx : xs ≠ []) : 0 < count size xs := by
  have hl : 0 < xs.length := List.length_pos_iff.mpr hx
  exact Nat.div_pos (by omega) hs

theorem length_le_mul_count (hs : 0 < size) : xs.length ≤ size * count size xs := by
  have lower := Nat.div_add_mod (xs.length + size - 1) size
  have upper := Nat.mod_lt (xs.length + size - 1) hs
  unfold count
  omega

theorem count_le (hs : 0 < size) (h : xs.length ≤ size * n) : count size xs ≤ n := by
  unfold count
  rw [Nat.div_le_iff_le_mul_add_pred hs]
  omega

theorem flatten_map_chunk (n : Nat) :
    ((List.range n).map (chunk size xs)).flatten = xs.take (size * n) := by
  induction n with
  | zero => simp
  | succ n ih =>
    rw [List.range_succ, List.map_append, List.flatten_append, ih, Nat.mul_succ, List.take_add]
    simp [chunk]

theorem flatten_chunks (hs : 0 < size) : (chunks size xs).flatten = xs := by
  unfold chunks
  rw [flatten_map_chunk, List.take_of_length_le (length_le_mul_count hs)]

theorem getElem?_chunks (h : i < count size xs) : (chunks size xs)[i]? = some (chunk size xs i) := by
  simp [chunks, h]

theorem mem_of_mem_chunk {x : α} (h : x ∈ chunk size xs i) : x ∈ xs :=
  List.mem_of_mem_drop (List.mem_of_mem_take h)

end Chunks
