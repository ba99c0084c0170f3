import VehicleOta.Hash.Sha256

/-!
# Hexadecimal texts

`bytes.fromhex`, which reads back what `bytes.hex` writes.
-/

namespace VehicleOta

open Hash (hexDigit hexDigest)

def hexDigitValue? (c : Char) : Option ℕ :=
  let n := c.toNat
  if 0x30 ≤ n ∧ n ≤ 0x39 then some (n - 0x30)
  else if 0x41 ≤ n ∧ n ≤ 0x46 then some (n - 0x37)
  else if 0x61 ≤ n ∧ n ≤ 0x66 then some (n - 0x57)
  else none

def isAsciiSpace (c : Char) : Bool := (9 ≤ c.toNat ∧ c.toNat ≤ 13) ∨ c.toNat = 0x20

def hexError (position : ℕ) : PyError :=
  .valueError ("non-hexadecimal number found in fromhex() arg at position " ++ toString position)

/-- The loop of `bytes.fromhex` from a position on; white space may stand between two bytes, not
inside one. -/
def fromHexAt (position : ℕ) : List Char → Except PyError Bytes
  | [] => .ok []
  | c :: rest =>
      if isAsciiSpace c then fromHexAt (position + 1) rest
      else
        match hexDigitValue? c with
        | none => .error (hexError position)
        | some high =>
            match rest with
            | [] => .error (hexError (position + 1))
            | d :: rest =>
                match hexDigitValue? d with
                | none => .error (hexError (position + 1))
                | some low => do
                    return UInt8.ofNat (16 * high + low) :: (← fromHexAt (position + 2) rest)

/-- `bytes.fromhex(text)`, which looks for characters outside of ASCII first. -/
def fromHex (text : List Char) : Except PyError Bytes :=
  match text.findIdx? fun c ↦ 128 ≤ c.toNat with
  | some position => .error (hexError position)
  | none => fromHexAt 0 text

theorem hexDigit_props : ∀ n : Fin 16, isAsciiSpace (hexDigit n) = false ∧
    hexDigitValue? (hexDigit n) = some n.1 ∧ (hexDigit n).toNat < 128 := by
  decide

theorem hexDigest_ascii (data : Bytes) :
    ((hexDigest data).toList.all fun c ↦ c.toNat < 128) = true := by
  rw [List.all_eq_true, hexDigest, String.toList_ofList]
  intro c hc
  obtain ⟨b, -, hb⟩ := List.mem_flatMap.mp hc
  have hlt := b.toNat_lt
  simp only [List.mem_cons, List.not_mem_nil, or_false] at hb
  rcases hb with rfl | rfl
  · exact decide_eq_true (hexDigit_props ⟨b.toNat / 16, by omega⟩).2.2
  · exact decide_eq_true (hexDigit_props ⟨b.toNat % 16, by omega⟩).2.2

theorem fromHexAt_hexDigest (data : Bytes) (position : ℕ) :
    fromHexAt position (hexDigest data).toList = .ok data := by
  rw [hexDigest, String.toList_ofList]
  induction data generalizing position with
  | nil => rfl
  | cons b data ih =>
      have hb := b.toNat_lt
      obtain ⟨hspace, hhigh, -⟩ := hexDigit_props ⟨b.toNat / 16, by omega⟩
      obtain ⟨-, hlow, -⟩ := hexDigit_props ⟨b.toNat % 16, by omega⟩
      have hbyte : UInt8.ofNat (16 * (b.toNat / 16) + b.toNat % 16) = b := by
        rw [Nat.div_add_mod]
        exact UInt8.ofNat_toNat
      simp only [List.flatMap_cons, List.cons_append, List.nil_append]
      rw [fromHexAt, hspace]
      simp only [Bool.false_eq_true, if_false, hhigh, hlow, ih, hbyte]
      rfl

theorem fromHex_hexDigest (data : Bytes) : fromHex (hexDigest data).toList = .ok data := by
  have hascii : (hexDigest data).toList.findIdx? (fun c ↦ 128 ≤ c.toNat) = none := by
    rw [List.findIdx?_eq_none_iff]
    intro c hc
    have hlt := of_decide_eq_true (List.all_eq_true.mp (hexDigest_ascii data) c hc)
    exact decide_eq_false (not_le.mpr hlt)
  rw [fromHex, hascii]
  exact fromHexAt_hexDigest data 0

end VehicleOta
