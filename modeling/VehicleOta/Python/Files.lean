import VehicleOta.Python.Basics

/-!
# Positioned writes and strided loops

`overwrite` is `seek` followed by `write` on a file opened with `"r+b"`; `rangeStep` is the
loop that hands a buffer out page by page.
-/

namespace VehicleOta

section Overwrite

variable {α : Type*}

/-- Replace the content of `file` from `offset` on by `data`; a gap is filled. -/
def overwrite (fill : α) (file : List α) (offset : ℕ) (data : List α) : List α :=
  if data = [] then file
  else
    (file ++ List.replicate (offset - file.length) fill).take offset ++ data ++
      file.drop (offset + data.length)

variable (fill : α) (file data more : List α) (offset : ℕ)

@[simp] theorem overwrite_nil : overwrite fill file offset [] = file := if_pos rfl

theorem overwrite_eq (h : offset + data.length ≤ file.length) :
    overwrite fill file offset data =
      file.take offset ++ data ++ file.drop (offset + data.length) := by
  unfold overwrite
  split
  · rename_i hnil
    simp [hnil]
  · have hgap : offset - file.length = 0 := by omega
    simp [hgap]

theorem length_overwrite (h : offset + data.length ≤ file.length) :
    (overwrite fill file offset data).length = file.length := by
  rw [overwrite_eq fill file data offset h]
  simp only [List.length_append, List.length_take, List.length_drop]
  omega

/-- The bytes behind the written region are those of the file. -/
theorem drop_overwrite (h : offset + data.length ≤ file.length) :
    (overwrite fill file offset data).drop (offset + data.length) =
      file.drop (offset + data.length) := by
  have hlen : (file.take offset ++ data).length = offset + data.length := by
    rw [List.length_append, List.length_take]
    omega
  rw [overwrite_eq fill file data offset h, List.drop_left' hlen]

theorem getElem?_overwrite (h : data = [] ∨ offset + data.length ≤ file.length) (i : ℕ) :
    (overwrite fill file offset data)[i]? =
      if offset ≤ i ∧ i < offset + data.length then data[i - offset]? else file[i]? := by
  rcases eq_or_ne data [] with rfl | hne
  · rw [overwrite_nil, List.length_nil, if_neg (by omega)]
  · have hfit := h.resolve_left hne
    have htake : (file.take offset).length = offset := by
      rw [List.length_take]
      omega
    rw [overwrite_eq fill file data offset hfit]
    split_ifs with hi
    · rw [List.getElem?_append_left (by rw [List.length_append, htake]; omega),
        List.getElem?_append_right (by omega), htake]
    · rcases Nat.lt_or_ge i offset with hlow | hhigh
      · rw [List.append_assoc, List.getElem?_append_left (by omega), List.getElem?_take,
          if_pos hlow]
      · rw [List.getElem?_append_right (by rw [List.length_append, htake]; omega),
          List.length_append, htake, List.getElem?_drop]
        congr 1
        omega

/-- Two adjacent writes are one. -/
theorem overwrite_append (h : offset + (data ++ more).length ≤ file.length) :
    overwrite fill (overwrite fill file offset data) (offset + data.length) more =
      overwrite fill file offset (data ++ more) := by
  rw [List.length_append] at h
  have hdata : offset + data.length ≤ file.length := by omega
  have hlen := length_overwrite fill file data offset hdata
  have htake : (overwrite fill file offset data).take (offset + data.length) =
      file.take offset ++ data := by
    have hpre : (file.take offset ++ data).length = offset + data.length := by
      rw [List.length_append, List.length_take]
      omega
    rw [overwrite_eq fill file data offset hdata, List.take_left' hpre]
  have hdrop : (overwrite fill file offset data).drop (offset + data.length + more.length) =
      file.drop (offset + (data ++ more).length) := by
    rw [← List.drop_drop, drop_overwrite fill file data offset hdata, List.drop_drop,
      List.length_append, Nat.add_assoc]
  rw [overwrite_eq fill _ more _ (by rw [hlen]; omega),
    overwrite_eq fill file (data ++ more) offset (by rw [List.length_append]; omega), htake, hdrop]
  simp only [List.append_assoc]

end Overwrite

section RangeStep

theorem rangeStep_split {stop step x : ℕ} {pre post : List ℕ} (hstep : 0 < step)
    (h : rangeStep stop step = pre ++ x :: post) : x = pre.length * step ∧ x < stop := by
  have hx : (rangeStep stop step)[pre.length]? = some x := by
    rw [h]
    simp
  unfold rangeStep at hx
  rw [List.getElem?_map, Option.map_eq_some_iff] at hx
  obtain ⟨i, hi, rfl⟩ := hx
  obtain ⟨hlt, hval⟩ := List.getElem?_eq_some_iff.mp hi
  rw [List.getElem_range] at hval
  rw [List.length_range] at hlt
  subst hval
  refine ⟨rfl, ?_⟩
  have hmul : (pre.length + 1) * step ≤ stop + step - 1 :=
    (Nat.le_div_iff_mul_le hstep).mp hlt
  rw [Nat.add_mul] at hmul
  omega

theorem length_rangeStep_mul_ge {stop step : ℕ} (hstep : 0 < step) :
    stop ≤ (rangeStep stop step).length * step := by
  unfold rangeStep
  rw [List.length_map, List.length_range]
  have h := Nat.lt_div_mul_add hstep (a := stop + step - 1)
  omega

/-- The page that a strided loop takes next continues what it has taken. -/
theorem take_append_slice {α : Type*} (data : List α) (x step : ℕ) :
    data.take x ++ slice data x (x + step) = data.take (x + step) := by
  unfold slice
  rw [List.drop_take, Nat.add_sub_cancel_left, List.take_add]

end RangeStep

end VehicleOta
