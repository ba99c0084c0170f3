import VehicleOta.Common.VersionOrder
import VehicleOta.Tcu.CompatibilityValidator
import VehicleOta.Tcu.DynamicUpdatePlanner
import VehicleOta.Tcu.FirmwareCompatibility

/-!
# Versions stored on an ECU

The setters of `tcu/models/ecu.py` store normal forms; what the validators and the planner decide
does not depend on that.
-/

namespace VehicleOta.Tcu

namespace ECU

def setCurrentVersion (ecu : ECU) (version : String) : Except PyError ECU := do
  return { ecu with currentVersion := ← normalizeVersion version }

def setBootloaderVersion (ecu : ECU) (version : String) : Except PyError ECU := do
  return { ecu with bootloaderVersion := ← normalizeVersion version }

end ECU

/-- Both versions of the ECU, through the setters. -/
def storeVersions (ecu : ECU) : Except PyError ECU := do
  (← ecu.setCurrentVersion ecu.currentVersion).setBootloaderVersion ecu.bootloaderVersion

/-- Every decision that looks at the versions of an ECU comes out the same. -/
structure SameDecisions (ecu stored : ECU) : Prop where
  eligible : ∀ campaign package,
    FirmwareCompatibilityValidator.ecuAccepts campaign stored package =
      FirmwareCompatibilityValidator.ecuAccepts campaign ecu package
  compatible : ∀ campaign target,
    CompatibilityValidator.targetFailed campaign target stored =
      CompatibilityValidator.targetFailed campaign target ecu
  satisfied : ∀ targetVersion,
    versionMatches stored.currentVersion targetVersion =
      versionMatches ecu.currentVersion targetVersion
  confirmed : ∀ expected,
    versionEq stored.currentVersion expected = versionEq ecu.currentVersion expected

section Stored

variable {a b c normal : String}

theorem comparison_normal {compare : String → String → Except PyError Bool}
    (h : compare ∈ comparisons) (ha : normalizeVersion a = .ok normal) (other : String) :
    compare normal other = compare a other :=
  comparison_congr h (parseVersion_of_normalizeVersion ha) rfl

theorem ne_empty_of_normal (h : normalizeVersion a = .ok normal) : a ≠ "" := by
  rintro rfl
  have hempty : normalizeVersion "" = .error (.valueError "Version value cannot be empty") := rfl
  rw [hempty] at h
  cases h

/-- A text that is accepted is none that a comparison refuses, nor is its normal form. -/
theorem ne_of_versionEq_error (h : normalizeVersion a = .ok normal) {targetVersion : String}
    {e : PyError} (herror : versionEq a targetVersion = .error e) :
    a ≠ targetVersion ∧ normal ≠ targetVersion := by
  have hnormal := parseVersion_of_normalizeVersion h
  obtain ⟨v, hv, -⟩ := bind_eq_ok.mp h
  constructor
  · rintro rfl
    rw [versionEq_of_parse hv hv] at herror
    cases herror
  · rintro rfl
    rw [versionEq_of_parse hv (hnormal.trans hv)] at herror
    cases herror

theorem versionMatches_normal (h : normalizeVersion a = .ok normal) (targetVersion : String) :
    versionMatches normal targetVersion = versionMatches a targetVersion := by
  unfold versionMatches
  by_cases htarget : targetVersion = ""
  · rw [if_pos (.inr htarget), if_pos (.inr htarget)]
  have hsame : versionEq normal targetVersion = versionEq a targetVersion :=
    comparison_normal (by simp [comparisons]) h targetVersion
  rw [if_neg (not_or.mpr ⟨normalizeVersion_ne_empty h, htarget⟩),
    if_neg (not_or.mpr ⟨ne_empty_of_normal h, htarget⟩), hsame]
  cases heq : versionEq a targetVersion with
  | ok same => rfl
  | error e =>
      obtain ⟨hne, hne'⟩ := ne_of_versionEq_error h heq
      dsimp only
      rw [decide_eq_false hne, decide_eq_false hne']

theorem storeVersions_of_normal {ecu : ECU} {normalA normalB : String}
    (ha : normalizeVersion ecu.currentVersion = .ok normalA)
    (hb : normalizeVersion ecu.bootloaderVersion = .ok normalB) :
    storeVersions ecu =
      .ok { ecu with currentVersion := normalA, bootloaderVersion := normalB } := by
  have hcurrent : ecu.setCurrentVersion ecu.currentVersion =
      .ok { ecu with currentVersion := normalA } := bind_eq_ok.mpr ⟨normalA, ha, rfl⟩
  exact bind_eq_ok.mpr ⟨_, hcurrent, bind_eq_ok.mpr ⟨normalB, hb, rfl⟩⟩

theorem sameDecisions_of_normal {ecu : ECU} {normalA normalB : String}
    (ha : normalizeVersion ecu.currentVersion = .ok normalA)
    (hb : normalizeVersion ecu.bootloaderVersion = .ok normalB) :
    SameDecisions ecu { ecu with currentVersion := normalA, bootloaderVersion := normalB } where
  eligible campaign package := by
    have hboot : ∀ other, versionLt normalB other = versionLt ecu.bootloaderVersion other :=
      comparison_normal (by simp [comparisons]) hb
    have heq : ∀ other, versionEq normalA other = versionEq ecu.currentVersion other :=
      comparison_normal (by simp [comparisons]) ha
    have hgte : ∀ other, versionGte normalA other = versionGte ecu.currentVersion other :=
      comparison_normal (by simp [comparisons]) ha
    unfold FirmwareCompatibilityValidator.ecuAccepts
    dsimp only
    rw [hboot, heq, hgte]
  compatible campaign target := by
    have hboot : ∀ other, versionLt normalB other = versionLt ecu.bootloaderVersion other :=
      comparison_normal (by simp [comparisons]) hb
    have hcurrent : ∀ other, versionLt normalA other = versionLt ecu.currentVersion other :=
      comparison_normal (by simp [comparisons]) ha
    unfold CompatibilityValidator.targetFailed
    dsimp only
    rw [hboot, hcurrent]
  satisfied := versionMatches_normal ha
  confirmed := comparison_normal (by simp [comparisons]) ha

/-- The normal form of an accepted version is accepted and its own normal form, it compares as the
version does, the versions are linearly ordered, and an ECU that stores normal forms is decided on
as one that stores the texts themselves. -/
theorem version_normal_form (a b c : String) (ha : Accepted a) (hb : Accepted b)
    (hc : Accepted c) :
    ∃ normalA normalB, normalizeVersion a = .ok normalA ∧ normalizeVersion b = .ok normalB ∧
      Accepted normalA ∧ normalizeVersion normalA = .ok normalA ∧
      (∀ compare ∈ comparisons, compare normalA normalB = compare a b ∧
        compare normalA b = compare a b ∧ compare a normalB = compare a b) ∧
      OneHolds [versionLt a b, versionEq a b, versionLt b a] ∧
      (versionLt a b = .ok true → versionLt b c = .ok true → versionLt a c = .ok true) ∧
      (versionLte a b = .ok true → versionLte b c = .ok true → versionLte a c = .ok true) ∧
      ∀ ecu : ECU, ecu.currentVersion = a → ecu.bootloaderVersion = b →
        ∃ stored, storeVersions ecu = .ok stored ∧ SameDecisions ecu stored := by
  obtain ⟨normalA, hnormalA⟩ := ha.normalizeVersion
  obtain ⟨normalB, hnormalB⟩ := hb.normalizeVersion
  have hparseA := parseVersion_of_normalizeVersion hnormalA
  have hparseB := parseVersion_of_normalizeVersion hnormalB
  refine ⟨normalA, normalB, hnormalA, hnormalB, accepted_of_normalizeVersion hnormalA,
    normalizeVersion_idempotent hnormalA, ?_, oneHolds_of_accepted ha hb,
    versionLt_trans ha hb hc, versionLte_trans ha hb hc, ?_⟩
  · intro compare hcompare
    exact ⟨comparison_congr hcompare hparseA hparseB, comparison_congr hcompare hparseA rfl,
      comparison_congr hcompare rfl hparseB⟩
  · rintro ecu rfl rfl
    exact ⟨_, storeVersions_of_normal hnormalA hnormalB, sameDecisions_of_normal hnormalA hnormalB⟩

/-- Missing parts, leading zeros and a suffix. -/
theorem version_normal_form_short :
    normalizeVersion "2.1" = .ok "2.1.0" ∧
      versionEq "2.1" " 02.01.0-rc1" = versionEq "2.1.0" " 02.01.0-rc1" ∧
      OneHolds [versionLt "2.1" " 02.01.0-rc1", versionEq "2.1" " 02.01.0-rc1",
        versionLt " 02.01.0-rc1" "2.1"] := by
  have hnormal : normalizeVersion "2.1" = .ok "2.1.0" := by decide +kernel
  obtain ⟨normalA, normalB, hnormalA, -, -, -, hcompare, hone, -⟩ :=
    version_normal_form "2.1" " 02.01.0-rc1" "3" ⟨⟨2, 1, 0⟩, by decide +kernel⟩
      ⟨⟨2, 1, 0⟩, by decide +kernel⟩ ⟨⟨3, 0, 0⟩, by decide +kernel⟩
  obtain rfl : "2.1.0" = normalA := Except.ok.inj (hnormal.symm.trans hnormalA)
  exact ⟨hnormal, (hcompare versionEq (by simp [comparisons])).2.1.symm, hone⟩

end Stored

end VehicleOta.Tcu
