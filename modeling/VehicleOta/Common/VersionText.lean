import VehicleOta.Common.Version

/-!
# The text of a version

Reading back what `str(SemVer)` wrote, and `int` on its parts.
-/

namespace VehicleOta

/-! ## Digits -/

theorem decimalValue?_of_isDigit {c : Char} (h : c.isDigit) :
    decimalValue? c = some (c.toNat - 0x30) := by
  have hrange : 0x30 ≤ c.toNat ∧ c.toNat < 0x30 + 10 := by
    obtain ⟨hlow, hhigh⟩ := Char.isDigit_iff_toNat.mp h
    exact ⟨hlow, Nat.lt_succ_of_le hhigh⟩
  rw [decimalValue?, decimalZeros, List.find?_cons_of_pos (by simpa using hrange)]
  rfl

theorem isDecimal_of_isDigit {c : Char} (h : c.isDigit) : isDecimal c = true := by
  rw [isDecimal, decimalValue?_of_isDigit h]
  rfl

theorem isSpace_of_isDigit {c : Char} (h : c.isDigit) : isSpace c = false := by
  have hrange : 0x30 ≤ c.toNat ∧ c.toNat ≤ 0x39 := Char.isDigit_iff_toNat.mp h
  unfold isSpace
  apply decide_eq_false
  omega

/-- The digits of a number, as `str` writes them. -/
def digitsOf (n : ℕ) : List Char := Nat.toDigits 10 n

theorem isDigit_of_mem_digitsOf {n : ℕ} {c : Char} (h : c ∈ digitsOf n) : c.isDigit :=
  Nat.isDigit_of_mem_toDigits (by decide) le_rfl h

theorem not_mem_digitsOf {c : Char} (h : c.isDigit = false) (n : ℕ) : c ∉ digitsOf n := by
  intro hc
  rw [isDigit_of_mem_digitsOf hc] at h
  cases h

theorem intOfDigits_digitsOf {n : ℕ} (h : (digitsOf n).length ≤ 4300) :
    intOfDigits (digitsOf n) = .ok n := by
  rw [intOfDigits, if_neg (not_lt.mpr h)]
  have hfold : (digitsOf n).foldl (fun n c ↦ 10 * n + (decimalValue? c).getD 0) 0 =
      Nat.ofDigitChars 10 (digitsOf n) 0 := by
    rw [Nat.ofDigitChars_eq_foldl]
    apply List.foldl_ext
    intro value c hc
    rw [decimalValue?_of_isDigit (isDigit_of_mem_digitsOf hc)]
    rfl
  rw [hfold, digitsOf, Nat.ofDigitChars_ten_toDigits]

theorem length_digitsOf_le {n k : ℕ} (hk : 0 < k) (h : n < 10 ^ k) : (digitsOf n).length ≤ k :=
  (Nat.length_toDigits_le_iff (by decide) hk).mpr h

theorem decimalValue?_lt {c : Char} {d : ℕ} (h : decimalValue? c = some d) : d < 10 := by
  obtain ⟨z, hz, rfl⟩ := Option.map_eq_some_iff.mp h
  have hrange : z ≤ c.toNat ∧ c.toNat < z + 10 := by simpa using List.find?_some hz
  omega

/-- A number that was read has no more digits than the text. -/
theorem length_digitsOf_of_intOfDigits {digits : List Char} {n : ℕ}
    (h : intOfDigits digits = .ok n) : (digitsOf n).length ≤ 4300 := by
  rw [intOfDigits] at h
  split at h
  · cases h
  rename_i hlength
  obtain rfl := Except.ok.inj h
  have hlt : ∀ (digits : List Char) (start bound : ℕ), start < 10 ^ bound →
      digits.foldl (fun n c ↦ 10 * n + (decimalValue? c).getD 0) start <
        10 ^ (bound + digits.length) := by
    intro digits
    induction digits with
    | nil => exact fun _ _ h ↦ h
    | cons c digits ih =>
        intro start bound hstart
        have hdigit : (decimalValue? c).getD 0 < 10 := by
          cases hc : decimalValue? c with
          | none => decide
          | some d => exact decimalValue?_lt hc
        have hnext : 10 * start + (decimalValue? c).getD 0 < 10 ^ (bound + 1) := by
          rw [pow_succ]
          omega
        have := ih _ (bound + 1) hnext
        rwa [List.length_cons, Nat.add_comm digits.length, ← Nat.add_assoc]
  cases digits with
  | nil => exact (length_digitsOf_le (by decide) (by decide : 0 < 10 ^ 1)).trans (by decide)
  | cons c digits =>
      have hfold := hlt (c :: digits) 0 0 (by decide)
      rw [Nat.zero_add] at hfold
      exact (length_digitsOf_le (by simp) hfold).trans (not_lt.mp hlength)

/-! ## Texts -/

/-- Digits and dots only. -/
theorem isSpace_of_mem_digitsOf {n : ℕ} {c : Char} (h : c ∈ digitsOf n) : isSpace c = false :=
  isSpace_of_isDigit (isDigit_of_mem_digitsOf h)

theorem strip_of_forall {text : List Char} (h : ∀ c ∈ text, isSpace c = false) :
    strip text = text := by
  have hdrop : ∀ text : List Char, (∀ c ∈ text, isSpace c = false) →
      text.dropWhile isSpace = text := by
    intro text h
    cases text with
    | nil => rfl
    | cons c text => rw [List.dropWhile_cons, if_neg (by rw [h c List.mem_cons_self]; simp)]
  rw [strip, hdrop text h, hdrop _ fun c hc ↦ h c (List.mem_reverse.mp hc), List.reverse_reverse]

theorem takeWhile_digitsOf (n : ℕ) {rest : List Char} (h : rest.head?.all fun c ↦ !isDecimal c) :
    (digitsOf n ++ rest).takeWhile isDecimal = digitsOf n ∧
      (digitsOf n ++ rest).dropWhile isDecimal = rest := by
  have hdigits : ∀ c ∈ digitsOf n, isDecimal c = true := fun c hc ↦
    isDecimal_of_isDigit (isDigit_of_mem_digitsOf hc)
  rw [List.takeWhile_append_of_pos hdigits, List.dropWhile_append_of_pos hdigits]
  cases rest with
  | nil => simp
  | cons c rest =>
      have hc : isDecimal c = false := by simpa using h
      rw [List.takeWhile_cons, List.dropWhile_cons, if_neg (by simp [hc]), if_neg (by simp [hc]),
        List.append_nil]
      exact ⟨rfl, rfl⟩

namespace SemVer

theorem toList_toString (v : SemVer) :
    v.toString.toList = digitsOf v.major ++ '.' :: (digitsOf v.minor ++ '.' :: digitsOf v.patch) := by
  simp [SemVer.toString, digitsOf, toString]

theorem dottedNumber_digitsOf (n : ℕ) {rest : List Char}
    (h : rest.head?.all fun c ↦ !isDecimal c) :
    dottedNumber ('.' :: (digitsOf n ++ rest)) = (digitsOf n, rest) := by
  obtain ⟨htake, hdrop⟩ := takeWhile_digitsOf n h
  rw [dottedNumber, htake, hdrop, if_neg]
  rw [List.isEmpty_iff]
  exact Nat.toDigits_ne_nil

/-- The numbers are read back from where they were written. -/
theorem parse_toString_eq (v : SemVer) :
    parse v.toString = do
      return ⟨← intOfDigits (digitsOf v.major), ← intOfDigits (digitsOf v.minor),
        ← intOfDigits (digitsOf v.patch)⟩ := by
  have hdot : isDecimal '.' = false := by decide
  have hstrip : strip v.toString.toList = v.toString.toList := by
    apply strip_of_forall
    intro c hc
    rw [toList_toString] at hc
    simp only [List.mem_append, List.mem_cons] at hc
    rcases hc with hc | rfl | hc | rfl | hc
    · exact isSpace_of_mem_digitsOf hc
    · decide
    · exact isSpace_of_mem_digitsOf hc
    · decide
    · exact isSpace_of_mem_digitsOf hc
  obtain ⟨htake, hdrop⟩ := @takeWhile_digitsOf v.major
    ('.' :: (digitsOf v.minor ++ '.' :: digitsOf v.patch)) (by simp [hdot])
  have hminor := @dottedNumber_digitsOf v.minor ('.' :: digitsOf v.patch) (by simp [hdot])
  have hpatch := @dottedNumber_digitsOf v.patch [] (by simp)
  rw [List.append_nil] at hpatch
  have hne : digitsOf v.major ≠ [] := Nat.toDigits_ne_nil
  unfold parse
  rw [hstrip, toList_toString]
  simp only [htake, hdrop, hminor, hpatch]
  rw [if_neg (by simp [hne])]
  simp only [suffixAccepted]
  rw [if_neg (by simp [hne])]

theorem parse_toString (v : SemVer) (hmajor : (digitsOf v.major).length ≤ 4300)
    (hminor : (digitsOf v.minor).length ≤ 4300) (hpatch : (digitsOf v.patch).length ≤ 4300) :
    parse v.toString = .ok v := by
  rw [parse_toString_eq, intOfDigits_digitsOf hmajor, intOfDigits_digitsOf hminor,
    intOfDigits_digitsOf hpatch]
  rfl

/-- What was read is read back. -/
theorem parse_toString_of_parse {value : String} {v : SemVer} (h : parse value = .ok v) :
    parse v.toString = .ok v := by
  unfold parse at h
  dsimp only at h
  split at h
  · cases h
  split at h
  · cases h
  generalize (strip value.toList).takeWhile isDecimal = major at h
  generalize dottedNumber ((strip value.toList).dropWhile isDecimal) = minor at h
  generalize dottedNumber minor.2 = patch at h
  cases hmajor : intOfDigits major with
  | error e => simp [hmajor, bind, Except.bind] at h
  | ok a =>
      cases hminor : intOfDigits minor.1 with
      | error e => simp [hmajor, hminor, bind, Except.bind] at h
      | ok b =>
          cases hpatch : intOfDigits patch.1 with
          | error e => simp [hmajor, hminor, hpatch, bind, Except.bind] at h
          | ok c =>
              simp only [hmajor, hminor, hpatch, bind, Except.bind, pure, Except.pure,
                Except.ok.injEq] at h
              rw [← h]
              exact parse_toString _ (length_digitsOf_of_intOfDigits hmajor)
                (length_digitsOf_of_intOfDigits hminor) (length_digitsOf_of_intOfDigits hpatch)

end SemVer

/-! ## `int` on a text -/

def unsignedInt (text : String) (digits : List Char) : Except PyError ℕ :=
  let groups := digits.splitOn '_'
  if groups.any List.isEmpty ∨ ¬ groups.flatten.all isDecimal then
    .error (.valueError ("invalid literal for int() with base 10: '" ++ text ++ "'"))
  else intOfDigits groups.flatten

/-- `int(text)` -/
def parseInt (text : String) : Except PyError ℤ :=
  match strip text.toList with
  | '-' :: digits => do return -((← unsignedInt text digits : ℕ) : ℤ)
  | '+' :: digits => do return ((← unsignedInt text digits : ℕ) : ℤ)
  | digits => do return ((← unsignedInt text digits : ℕ) : ℤ)

theorem parseInt_digitsOf (n : ℕ) :
    parseInt (String.ofList (digitsOf n)) = do
      return ((← intOfDigits (digitsOf n) : ℕ) : ℤ) := by
  have hsplit : (digitsOf n).splitOn '_' = [digitsOf n] :=
    List.splitOn_eq_singleton (not_mem_digitsOf (by decide) n)
  have hne : digitsOf n ≠ [] := Nat.toDigits_ne_nil
  have hunsigned : ∀ text, unsignedInt text (digitsOf n) = intOfDigits (digitsOf n) := by
    intro text
    have hall : (digitsOf n).all isDecimal = true := List.all_eq_true.mpr fun c hc ↦
      isDecimal_of_isDigit (isDigit_of_mem_digitsOf hc)
    unfold unsignedInt
    rw [hsplit]
    simp only [List.any_cons, List.any_nil, List.flatten_cons, List.flatten_nil, List.append_nil]
    rw [if_neg (by simp [hne, hall])]
  unfold parseInt
  rw [String.toList_ofList, strip_of_forall fun c ↦ isSpace_of_mem_digitsOf]
  split
  · rename_i digits heq
    exact absurd (heq ▸ List.mem_cons_self) (not_mem_digitsOf (c := '-') (by decide) n)
  · rename_i digits heq
    exact absurd (heq ▸ List.mem_cons_self) (not_mem_digitsOf (c := '+') (by decide) n)
  · rw [hunsigned]

end VehicleOta
