import Mathlib.Tactic

/-!
# NOR memory

Bits of a byte fall from 1 to 0 by programming and rise again by erasing only.  A memory is the
list of its bytes; `patch` replaces a range of them and keeps the length.
-/

namespace NorMemory

/-! ## Bytes -/

/-- Programming `new` over `old` would raise a bit. -/
def Raises (old new : UInt8) : Prop := old ||| new ≠ old

instance (old new : UInt8) : Decidable (Raises old new) := inferInstanceAs (Decidable (_ ≠ _))

/-- Between `old` and `new` bits have only fallen. -/
def Worn (old new : UInt8) : Prop := new &&& old = new

theorem Worn.refl (b : UInt8) : Worn b b := UInt8.and_self

theorem Worn.trans {a b c : UInt8} (h : Worn a b) (h' : Worn b c) : Worn a c := by
  calc c &&& a = (c &&& b) &&& a := by rw [h']
    _ = c &&& (b &&& a) := UInt8.and_assoc c b a
    _ = c := by rw [h, h']

/-- A byte that raises no bit is programmed as it is. -/
theorem and_eq_of_not_raises {old new : UInt8} (h : ¬ Raises old new) : old &&& new = new := by
  have hor : old ||| new = old := not_not.mp h
  apply UInt8.toBitVec_inj.mp
  have hor' : old.toBitVec ||| new.toBitVec = old.toBitVec := congrArg UInt8.toBitVec hor
  change old.toBitVec &&& new.toBitVec = new.toBitVec
  ext i hi
  have hbit := congrArg (fun v : BitVec 8 ↦ v[i]) hor'
  simp only [BitVec.getElem_or, BitVec.getElem_and] at hbit ⊢
  cases hold : old.toBitVec[i] <;> simp_all

theorem worn_of_not_raises {old new : UInt8} (h : ¬ Raises old new) : Worn old new := by
  rw [Worn, UInt8.and_comm]
  exact and_eq_of_not_raises h

/-! ## Patches -/

section Patch

variable {α : Type*} {memory data : List α} {start size i : ℕ} {a b : α}

/-- The first `size` of `data`, over the bytes from `start` on. -/
def patch (memory data : List α) (start size : ℕ) : List α :=
  memory.mapIdx fun i old ↦ if start ≤ i ∧ i < start + size then data.getD (i - start) old else old

@[simp] theorem length_patch : (patch memory data start size).length = memory.length :=
  List.length_mapIdx

theorem getElem?_patch : (patch memory data start size)[i]? =
    memory[i]?.map fun old ↦
      if start ≤ i ∧ i < start + size then data.getD (i - start) old else old :=
  List.getElem?_mapIdx

theorem getElem?_patch_of_not (h : i < start ∨ start + size ≤ i) :
    (patch memory data start size)[i]? = memory[i]? := by
  have hnot : ¬ (start ≤ i ∧ i < start + size) := by omega
  rw [getElem?_patch]
  simp [hnot]

theorem getElem?_patch_of_get (hi : i < memory.length) (hstart : start ≤ i)
    (hsize : i < start + size) (hdata : data[i - start]? = some b) :
    (patch memory data start size)[i]? = some b := by
  rw [getElem?_patch, List.getElem?_eq_getElem hi, Option.map_some, if_pos ⟨hstart, hsize⟩,
    List.getD_eq_getElem?_getD, hdata, Option.getD_some]

/-- Bytes that the data does not reach are kept. -/
theorem getElem?_patch_of_length_le (h : i < start ∨ start + data.length ≤ i) :
    (patch memory data start size)[i]? = memory[i]? := by
  rw [getElem?_patch]
  cases memory[i]? with
  | none => rfl
  | some old =>
      rw [Option.map_some]
      congr 1
      split_ifs with hin
      · rw [List.getD_eq_getElem?_getD, List.getElem?_eq_none (by omega), Option.getD_none]
      · rfl

/-- What was programmed in full is read back. -/
theorem take_drop_patch (hfit : start + data.length ≤ memory.length) (hsize : data.length ≤ size) :
    ((patch memory data start size).drop start).take data.length = data := by
  apply List.ext_getElem?
  intro k
  rw [List.getElem?_take]
  split_ifs with hk
  · rw [List.getElem?_drop]
    have hget : data[start + k - start]? = some data[k] := by
      rw [Nat.add_sub_cancel_left]
      exact List.getElem?_eq_getElem hk
    rw [getElem?_patch_of_get (by omega) (by omega) (by omega) hget]
    exact (List.getElem?_eq_getElem hk).symm
  · exact (List.getElem?_eq_none (by omega)).symm

@[simp] theorem patch_zero : patch memory data start 0 = memory := by
  apply List.ext_getElem?
  intro i
  exact getElem?_patch_of_not (by omega)

end Patch

end NorMemory
