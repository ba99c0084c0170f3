import Mathlib.Algebra.Order.BigOperators.Group.List
import Mathlib.Tactic

/-!
# Data cut into blocks

Blocks of a fixed size, the last one possibly shorter.  Blocks taken in order and each at most
once hold as many elements as the data only when none is missing.
-/

namespace BlockLogic

variable {α : Type*} {size : ℕ} {data : List α}

/-- Block number `i` of the data. -/
def block (size : ℕ) (data : List α) (i : ℕ) : List α := (data.drop (i * size)).take size

def blockCount (size : ℕ) (data : List α) : ℕ := (data.length + size - 1) / size

theorem length_block (size : ℕ) (data : List α) (i : ℕ) :
    (block size data i).length = min size (data.length - i * size) := by
  simp [block]

theorem lt_blockCount_iff (hsize : 0 < size) {i : ℕ} :
    i < blockCount size data ↔ i * size < data.length := by
  rw [blockCount, Nat.lt_iff_add_one_le, Nat.le_div_iff_mul_le hsize, Nat.succ_mul]
  omega

theorem length_le_blockCount_mul (hsize : 0 < size) :
    data.length ≤ blockCount size data * size := by
  by_contra h
  have hlast : blockCount size data < blockCount size data :=
    (lt_blockCount_iff hsize).mpr (not_le.mp h)
  exact lt_irrefl _ hlast

theorem length_block_pos (hsize : 0 < size) {i : ℕ} (hi : i < blockCount size data) :
    0 < (block size data i).length := by
  have := (lt_blockCount_iff hsize).mp hi
  rw [length_block]
  omega

theorem block_drop (size : ℕ) (data : List α) (i : ℕ) :
    block size (data.drop size) i = block size data (i + 1) := by
  rw [block, block, List.drop_drop, Nat.succ_mul, Nat.add_comm]

theorem blockCount_drop (hsize : 0 < size) (data : List α) :
    blockCount size (data.drop size) = blockCount size data - 1 := by
  rw [blockCount, blockCount, List.length_drop]
  by_cases h : size ≤ data.length
  · rw [show data.length + size - 1 = (data.length - size + size - 1) + size by omega,
      Nat.add_div_right _ hsize, Nat.add_sub_cancel]
  · rw [Nat.sub_eq_zero_of_le (not_le.mp h).le, Nat.zero_add, Nat.div_eq_of_lt (by omega)]
    have : (data.length + size - 1) / size < 2 := Nat.div_lt_of_lt_mul (by omega)
    omega

theorem take_append_block (size : ℕ) (data : List α) (i : ℕ) :
    data.take (i * size) ++ block size data i = data.take ((i + 1) * size) := by
  rw [block, ← List.take_add, Nat.succ_mul]

theorem flatMap_range_block (size : ℕ) (data : List α) (k : ℕ) :
    (List.range k).flatMap (block size data) = data.take (k * size) := by
  induction k with
  | zero => simp
  | succ k ih =>
      rw [List.range_succ, List.flatMap_append, ih, List.flatMap_singleton, take_append_block]

/-- All blocks together are the data. -/
theorem flatMap_blocks (hsize : 0 < size) :
    (List.range (blockCount size data)).flatMap (block size data) = data := by
  rw [flatMap_range_block, List.take_of_length_le (length_le_blockCount_mul hsize)]

/-! ## Blocks in order, each at most once -/

/-- Dropping an element of positive weight makes a list lighter. -/
theorem eq_of_sublist_of_sum_le {ι : Type*} {f : ι → ℕ} {xs ys : List ι} (h : xs.Sublist ys)
    (hpos : ∀ y ∈ ys, 0 < f y) (hsum : (ys.map f).sum ≤ (xs.map f).sum) : xs = ys := by
  induction h with
  | slnil => rfl
  | cons y h ih =>
      have hle := (h.map f).sum_le_sum fun _ _ ↦ Nat.zero_le _
      have hy := hpos y List.mem_cons_self
      rw [List.map_cons, List.sum_cons] at hsum
      omega
  | cons_cons y h ih =>
      rw [List.map_cons, List.map_cons, List.sum_cons, List.sum_cons] at hsum
      rw [ih (fun z hz ↦ hpos z (List.mem_cons_of_mem y hz)) (by omega)]

theorem length_flatMap_le_of_sublist {xs : List ℕ} {n : ℕ} (h : xs.Sublist (List.range n)) :
    (xs.flatMap (block size data)).length ≤ data.length := by
  have hle := (h.map fun i ↦ (block size data i).length).sum_le_sum fun _ _ ↦ Nat.zero_le _
  rw [← List.length_flatMap, ← List.length_flatMap, flatMap_range_block, List.length_take] at hle
  exact hle.trans (min_le_right _ _)

theorem eq_range_of_sublist (hsize : 0 < size) {xs : List ℕ}
    (h : xs.Sublist (List.range (blockCount size data)))
    (hlength : data.length ≤ (xs.flatMap (block size data)).length) :
    xs = List.range (blockCount size data) := by
  refine eq_of_sublist_of_sum_le h
    (fun i hi ↦ length_block_pos hsize (List.mem_range.mp hi)) ?_
  rw [← List.length_flatMap, ← List.length_flatMap, flatMap_blocks hsize]
  exact hlength

/-- A block behind all that were taken extends them in order. -/
theorem sublist_range_concat {xs : List ℕ} {k i : ℕ} (h : xs.Sublist (List.range k))
    (hi : k ≤ i) : (xs ++ [i]).Sublist (List.range (i + 1)) := by
  rw [List.range_succ]
  exact (h.trans (List.range_sublist.mpr hi)).append (List.Sublist.refl _)

end BlockLogic
