import VehicleOta.Common.VersionText

/-!
# The order of versions

`normalize_version` writes the numbers that `SemVer.parse` reads, so a normal form compares as the
text it came from.
-/

namespace VehicleOta

/-! ## The order -/

namespace SemVer

variable {a b c : SemVer}

theorem lt_trans (hab : a.lt b) (hbc : b.lt c) : a.lt c := by
  unfold lt at hab hbc ⊢
  omega

theorem le_trans (hab : a.le b) (hbc : b.le c) : a.le c := by
  unfold le at hab hbc ⊢
  omega

theorem lt_irrefl (a : SemVer) : ¬ a.lt a := by
  unfold lt
  omega

theorem lt_asymm (hab : a.lt b) : ¬ b.lt a := fun hba ↦ lt_irrefl a (lt_trans hab hba)

theorem lt_trichotomy (a b : SemVer) : a.lt b ∨ a = b ∨ b.lt a := by
  by_cases heq : a = b
  · exact .inr (.inl heq)
  have hfields : ¬ (a.major = b.major ∧ a.minor = b.minor ∧ a.patch = b.patch) := by
    rintro ⟨hmajor, hminor, hpatch⟩
    cases a
    cases b
    cases hmajor
    cases hminor
    cases hpatch
    exact heq rfl
  unfold lt
  omega

end SemVer

/-! ## Comparisons of accepted texts -/

/-- `SemVer.parse` reads the text. -/
def Accepted (text : String) : Prop := ∃ v, SemVer.parse text = .ok v

/-- The functions of `common/utils.py` that compare two versions. -/
def comparisons : List (String → String → Except PyError Bool) :=
  [versionLt, versionLte, versionEq, versionGte]

/-- All of them answer, and one with `True`. -/
def OneHolds (answers : List (Except PyError Bool)) : Prop :=
  ∃ values : List Bool, answers = values.map .ok ∧ values.count true = 1

section Texts

variable {a b c normal : String}

/-- A comparison looks at its texts through `parse_version` only. -/
theorem comparison_congr {compare : String → String → Except PyError Bool}
    (h : compare ∈ comparisons) {a' b' : String} (ha : parseVersion a' = parseVersion a)
    (hb : parseVersion b' = parseVersion b) : compare a' b' = compare a b := by
  simp only [comparisons, List.mem_cons, List.not_mem_nil, or_false] at h
  rcases h with rfl | rfl | rfl | rfl
  · rw [versionLt, versionLt, ha, hb]
  · rw [versionLte, versionLte, ha, hb]
  · rw [versionEq, versionEq, ha, hb]
  · rw [versionGte, versionGte, ha, hb]

theorem oneHolds_of_accepted (ha : Accepted a) (hb : Accepted b) :
    OneHolds [versionLt a b, versionEq a b, versionLt b a] := by
  obtain ⟨v, hv⟩ := ha
  obtain ⟨w, hw⟩ := hb
  rw [versionLt_of_parse hv hw, versionEq_of_parse hv hw, versionLt_of_parse hw hv]
  refine ⟨[decide (v.lt w), decide (v = w), decide (w.lt v)], rfl, ?_⟩
  rcases SemVer.lt_trichotomy v w with hlt | rfl | hlt
  · have hne : v ≠ w := by
      rintro rfl
      exact SemVer.lt_irrefl v hlt
    simp [hlt, hne, SemVer.lt_asymm hlt]
  · simp [SemVer.lt_irrefl v]
  · have hne : v ≠ w := by
      rintro rfl
      exact SemVer.lt_irrefl v hlt
    simp [hlt, hne, SemVer.lt_asymm hlt]

theorem versionLt_trans (ha : Accepted a) (hb : Accepted b) (hc : Accepted c)
    (hab : versionLt a b = .ok true) (hbc : versionLt b c = .ok true) :
    versionLt a c = .ok true := by
  obtain ⟨v, hv⟩ := ha
  obtain ⟨w, hw⟩ := hb
  obtain ⟨u, hu⟩ := hc
  rw [versionLt_of_parse hv hw] at hab
  rw [versionLt_of_parse hw hu] at hbc
  have hlt := SemVer.lt_trans (of_decide_eq_true (Except.ok.inj hab))
    (of_decide_eq_true (Except.ok.inj hbc))
  rw [versionLt_of_parse hv hu, decide_eq_true hlt]

theorem versionLte_trans (ha : Accepted a) (hb : Accepted b) (hc : Accepted c)
    (hab : versionLte a b = .ok true) (hbc : versionLte b c = .ok true) :
    versionLte a c = .ok true := by
  obtain ⟨v, hv⟩ := ha
  obtain ⟨w, hw⟩ := hb
  obtain ⟨u, hu⟩ := hc
  rw [versionLte_of_parse hv hw] at hab
  rw [versionLte_of_parse hw hu] at hbc
  have hle := SemVer.le_trans (of_decide_eq_true (Except.ok.inj hab))
    (of_decide_eq_true (Except.ok.inj hbc))
  rw [versionLte_of_parse hv hu, decide_eq_true hle]

/-! ## Normal forms -/

theorem Accepted.normalizeVersion (h : Accepted a) :
    ∃ normal, normalizeVersion a = .ok normal := by
  obtain ⟨v, hv⟩ := h
  exact ⟨v.toString, by rw [VehicleOta.normalizeVersion, parseVersion, hv]; rfl⟩

/-- The normal form reads as the text it came from. -/
theorem parseVersion_of_normalizeVersion (h : normalizeVersion a = .ok normal) :
    parseVersion normal = parseVersion a := by
  obtain ⟨v, hv, hnormal⟩ := bind_eq_ok.mp h
  obtain rfl : v.toString = normal := Except.ok.inj hnormal
  rw [hv]
  exact SemVer.parse_toString_of_parse hv

theorem accepted_of_normalizeVersion (h : normalizeVersion a = .ok normal) : Accepted normal := by
  obtain ⟨v, hv, -⟩ := bind_eq_ok.mp h
  exact ⟨v, (parseVersion_of_normalizeVersion h).trans hv⟩

theorem normalizeVersion_idempotent (h : normalizeVersion a = .ok normal) :
    normalizeVersion normal = .ok normal := by
  rw [normalizeVersion, parseVersion_of_normalizeVersion h]
  exact h

end Texts

end VehicleOta
