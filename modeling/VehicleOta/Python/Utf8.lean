import VehicleOta.Python.Basics

/-!
# UTF-8

`bytes.decode("utf-8", errors="ignore")`, one byte at a time, and its inverse on ASCII texts.
-/

namespace VehicleOta

/-! ## Decoding -/

/-- The continuation bytes that are still needed, the range of the next one, and the bits so far. -/
structure Utf8State where
  needed : ℕ := 0
  low : UInt8 := 0x80
  high : UInt8 := 0xBF
  value : ℕ := 0

namespace Utf8State

/-- A byte in front of which nothing is pending; one that starts no character is left out. -/
def start (b : UInt8) : Option Char × Utf8State :=
  if b < 0x80 then (some (Char.ofNat b.toNat), {})
  else if 0xC2 ≤ b ∧ b ≤ 0xDF then (none, ⟨1, 0x80, 0xBF, b.toNat - 0xC0⟩)
  else if 0xE0 ≤ b ∧ b ≤ 0xEF then
    (none, ⟨2, if b = 0xE0 then 0xA0 else 0x80, if b = 0xED then 0x9F else 0xBF, b.toNat - 0xE0⟩)
  else if 0xF0 ≤ b ∧ b ≤ 0xF4 then
    (none, ⟨3, if b = 0xF0 then 0x90 else 0x80, if b = 0xF4 then 0x8F else 0xBF, b.toNat - 0xF0⟩)
  else (none, {})

/-- The next byte.  What is pending in front of a byte that does not continue it is left out. -/
def next (s : Utf8State) (b : UInt8) : Option Char × Utf8State :=
  if s.needed = 0 ∨ ¬ (s.low ≤ b ∧ b ≤ s.high) then start b
  else
    let value := 64 * s.value + (b.toNat - 0x80)
    if s.needed = 1 then (some (Char.ofNat value), {}) else (none, ⟨s.needed - 1, 0x80, 0xBF, value⟩)

end Utf8State

/-- The characters behind the state; what is pending at the end is left out. -/
def decodeFrom : Utf8State → Bytes → List Char
  | _, [] => []
  | s, b :: rest => (s.next b).1.toList ++ decodeFrom (s.next b).2 rest

def decodeUtf8 (data : Bytes) : List Char := decodeFrom {} data

/-- A byte order mark, with a surrogate and a truncated character left out. -/
example : decodeUtf8 [0x41, 0xED, 0xA0, 0x80, 0xEF, 0xBB, 0xBF, 0xE2, 0x82] = ['A', '\uFEFF'] := by
  decide

/-! ## ASCII texts -/

theorem toList_loop (data : ByteArray) (i : ℕ) (done : List UInt8) :
    ByteArray.toList.loop data i done = done.reverse ++ data.data.toList.drop i := by
  unfold ByteArray.toList.loop
  split
  · rename_i hlt
    have hi : i < data.data.toList.length := hlt
    have hget : data.get! i = data.data.toList[i] := getElem!_pos data.data i hlt
    rw [toList_loop data (i + 1), List.drop_eq_getElem_cons hi, List.reverse_cons, List.append_assoc,
      hget]
    rfl
  · rename_i hge
    rw [List.drop_eq_nil_of_le (not_lt.mp hge : data.data.toList.length ≤ i), List.append_nil]
termination_by data.size - i

theorem encode_ascii {text : List Char} (h : ∀ c ∈ text, c.toNat < 128) :
    (String.ofList text).toUTF8.toList = text.map fun c ↦ UInt8.ofNat c.toNat := by
  rw [String.toUTF8_eq_toByteArray, String.toByteArray_ofList, ByteArray.toList, toList_loop,
    List.utf8Encode, List.toList_data_toByteArray, List.reverse_nil, List.nil_append, List.drop_zero]
  induction text with
  | nil => rfl
  | cons c text ih =>
      rw [List.forall_mem_cons] at h
      have hc : c.val.toNat ≤ 0x7f := Nat.le_of_lt_succ h.1
      rw [List.flatMap_cons, List.map_cons, ih h.2, String.utf8EncodeChar, if_pos hc]
      rfl

theorem decode_ascii {text : List Char} (h : ∀ c ∈ text, c.toNat < 128) :
    decodeUtf8 (text.map fun c ↦ UInt8.ofNat c.toNat) = text := by
  unfold decodeUtf8
  induction text with
  | nil => rfl
  | cons c text ih =>
      rw [List.forall_mem_cons] at h
      have hbyte : (UInt8.ofNat c.toNat).toNat = c.toNat := by
        rw [UInt8.toNat_ofNat']
        exact Nat.mod_eq_of_lt (h.1.trans (by decide))
      have hlt : UInt8.ofNat c.toNat < 0x80 := by
        rw [UInt8.lt_iff_toNat_lt, hbyte]
        exact h.1
      rw [List.map_cons, decodeFrom, Utf8State.next, if_pos (Or.inl rfl), Utf8State.start, if_pos hlt,
        ih h.2, hbyte, Char.ofNat_toNat]
      rfl

/-- An ASCII text is decoded from its encoding. -/
theorem decode_encode_ascii {text : List Char} (h : ∀ c ∈ text, c.toNat < 128) :
    decodeUtf8 (String.ofList text).toUTF8.toList = text := by
  rw [encode_ascii h, decode_ascii h]

end VehicleOta
