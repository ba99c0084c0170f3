import VehicleOta.Tcu.Models

/-!
# Campaign compatibility

`CompatibilityValidator.validate` of `tcu/compatibility/validator.py`, which decides the
targets of a campaign on the discovered vehicle and records the decisions in the campaign.
-/

namespace VehicleOta.Tcu.CompatibilityValidator

variable (resolver : DependencyPolicyResolver) (vehicle : Vehicle) (campaign : Campaign)

/-- `_target_can_be_skipped` -/
def targetCanBeSkipped (target : CampaignTarget) (reason : String) : Bool :=
  if reason = "ECU_NOT_FOUND" ∧ target.skipIfUnavailable then true
  else if reason = "INCOMPATIBLE" ∧ target.skipIfIncompatible then true
  else if !target.mandatory then true
  else !(resolver.forEcu target.ecuName).unavailableAbortsCampaign

/-- The five checks of a discovered ECU, all of which are made. -/
def targetFailed (target : CampaignTarget) (ecu : ECU) : Except PyError Bool := do
  let versionTooOld ← versionLt ecu.currentVersion target.minimumSupportedVersion
  let bootloaderTooOld ← versionLt ecu.bootloaderVersion target.minimumBootloader
  return ecu.hardwareVariant ≠ target.hardwareVariant || versionTooOld || bootloaderTooOld ||
    normalizeTransport ecu.transport ≠ normalizeTransport campaign.transport ||
    !ecu.rollbackSupported

inductive Outcome where
  | approved
  | skipped (reason : String)
  | rejected
  deriving DecidableEq

def failedOutcome (target : CampaignTarget) (reason : String) : Outcome :=
  if targetCanBeSkipped resolver target reason then .skipped reason else .rejected

/-- The first ECU of the name. -/
def findEcu (ecuName : String) : Option ECU :=
  vehicle.getAllEcus.find? fun ecu ↦ ecu.ecuName = ecuName

def checkTarget (target : CampaignTarget) : Except PyError Outcome :=
  match findEcu vehicle target.ecuName with
  | none => .ok (failedOutcome resolver target "ECU_NOT_FOUND")
  | some ecu => do
      if ← targetFailed campaign target ecu then
        return failedOutcome resolver target "INCOMPATIBLE"
      else return .approved

/-- The local variables of `validate`. -/
structure Verdict where
  overallResult : Bool := true
  skippedOptional : List (String × String) := []
  approvedTargets : List String := []

def Verdict.record (verdict : Verdict) (ecuName : String) : Outcome → Verdict
  | .approved => { verdict with approvedTargets := verdict.approvedTargets ++ [ecuName] }
  | .skipped reason =>
      { verdict with skippedOptional := verdict.skippedOptional ++ [(ecuName, reason)] }
  | .rejected => { verdict with overallResult := false }

def decideTarget (verdict : Verdict) (target : CampaignTarget) : Except PyError Verdict := do
  return verdict.record target.ecuName (← checkTarget resolver vehicle campaign target)

/-- The result, and the campaign with its two new attributes. -/
def validate : Except PyError (Bool × Campaign) := do
  let verdict ← campaign.targets.foldlM (decideTarget resolver vehicle campaign) {}
  return (verdict.overallResult, { campaign with
    approvedTargets := verdict.approvedTargets
    skippedOptionalTargets := verdict.skippedOptional })

/-! ## What is recorded -/

variable {resolver vehicle campaign}

/-- The target is found and passes the five checks. -/
def Passes (vehicle : Vehicle) (campaign : Campaign) (target : CampaignTarget) : Prop :=
  ∃ ecu, findEcu vehicle target.ecuName = some ecu ∧ targetFailed campaign target ecu = .ok false

theorem failedOutcome_ne_approved (target : CampaignTarget) (reason : String) :
    failedOutcome resolver target reason ≠ .approved := by
  unfold failedOutcome
  split <;> simp

theorem checkTarget_approved_iff (target : CampaignTarget) :
    checkTarget resolver vehicle campaign target = .ok .approved ↔
      Passes vehicle campaign target := by
  unfold checkTarget Passes
  cases findEcu vehicle target.ecuName with
  | none =>
      constructor
      · intro h
        exact absurd (Except.ok.inj h) (failedOutcome_ne_approved target _)
      · rintro ⟨ecu, h, -⟩
        cases h
  | some ecu =>
      constructor
      · intro h
        refine ⟨ecu, rfl, ?_⟩
        cases hfailed : targetFailed campaign target ecu with
        | error e => simp [hfailed, bind, Except.bind] at h
        | ok failed =>
            cases failed with
            | false => rfl
            | true =>
                simp only [hfailed, bind, Except.bind, pure, Except.pure, if_true] at h
                exact absurd (Except.ok.inj h) (failedOutcome_ne_approved target _)
      · rintro ⟨ecu', h, hfailed⟩
        obtain rfl := Option.some.inj h
        simp [hfailed, bind, Except.bind, pure, Except.pure]

theorem decideTarget_ok {verdict next : Verdict} {target : CampaignTarget}
    (h : decideTarget resolver vehicle campaign verdict target = .ok next) :
    ∃ outcome, checkTarget resolver vehicle campaign target = .ok outcome ∧
      next = verdict.record target.ecuName outcome := by
  unfold decideTarget at h
  cases hcheck : checkTarget resolver vehicle campaign target with
  | error e =>
      rw [hcheck] at h
      cases h
  | ok outcome =>
      rw [hcheck] at h
      exact ⟨outcome, rfl, (Except.ok.inj h).symm⟩

/-- One lemma for the loop: both lists collect the targets with the outcome. -/
theorem foldlM_decideTarget {targets : List CampaignTarget} {verdict final : Verdict}
    (h : targets.foldlM (decideTarget resolver vehicle campaign) verdict = .ok final) :
    (∀ name, name ∈ final.approvedTargets ↔ name ∈ verdict.approvedTargets ∨
      ∃ target ∈ targets, target.ecuName = name ∧ Passes vehicle campaign target) ∧
    ∀ name reason, (name, reason) ∈ final.skippedOptional ↔
      (name, reason) ∈ verdict.skippedOptional ∨ ∃ target ∈ targets, target.ecuName = name ∧
        checkTarget resolver vehicle campaign target = .ok (.skipped reason) := by
  induction targets generalizing verdict with
  | nil =>
      obtain rfl := Except.ok.inj h
      simp
  | cons target targets ih =>
      rw [List.foldlM_cons] at h
      cases hstep : decideTarget resolver vehicle campaign verdict target with
      | error e =>
          rw [hstep] at h
          cases h
      | ok next =>
          rw [hstep] at h
          obtain ⟨happroved, hskipped⟩ := ih h
          obtain ⟨outcome, hcheck, rfl⟩ := decideTarget_ok hstep
          have hpasses := @checkTarget_approved_iff resolver vehicle campaign target
          rw [hcheck] at hpasses
          constructor
          · intro name
            rw [happroved]
            simp only [List.mem_cons, exists_eq_or_imp, ← hpasses]
            cases outcome <;> simp [Verdict.record, or_assoc, eq_comm]
          · intro name reason
            rw [hskipped]
            simp only [List.mem_cons, exists_eq_or_imp, hcheck]
            cases outcome <;> simp [Verdict.record, or_assoc, eq_comm]

theorem validate_ok {result : Bool} {decided : Campaign}
    (h : validate resolver vehicle campaign = .ok (result, decided)) :
    (∃ approved skipped, decided = { campaign with
      approvedTargets := approved
      skippedOptionalTargets := skipped }) ∧
    (∀ name, name ∈ decided.approvedTargets ↔
      ∃ target ∈ campaign.targets, target.ecuName = name ∧ Passes vehicle campaign target) ∧
    ∀ name reason, (name, reason) ∈ decided.skippedOptionalTargets ↔
      ∃ target ∈ campaign.targets, target.ecuName = name ∧
        checkTarget resolver vehicle campaign target = .ok (.skipped reason) := by
  unfold validate at h
  cases hloop : campaign.targets.foldlM (decideTarget resolver vehicle campaign) {} with
  | error e =>
      rw [hloop] at h
      cases h
  | ok final =>
      rw [hloop] at h
      obtain ⟨-, rfl⟩ := Prod.mk.inj (Except.ok.inj h)
      obtain ⟨happroved, hskipped⟩ := foldlM_decideTarget hloop
      refine ⟨⟨_, _, rfl⟩, fun name ↦ ?_, fun name reason ↦ ?_⟩
      · rw [happroved, or_iff_right List.not_mem_nil]
      · rw [hskipped, or_iff_right List.not_mem_nil]

end VehicleOta.Tcu.CompatibilityValidator
