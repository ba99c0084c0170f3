import VehicleOta.Ecu.RejectedSlot
import VehicleOta.Tcu.SchedulerSpec
import VehicleOta.Tcu.ValidatorSpec

/-!
# The end of a campaign

The scheduler flashes an ECU behind its dependencies only.  The validator then commits and
rolls back each ECU for itself.
-/

namespace VehicleOta.Tcu

open Ecu CrashLogic PostInstallValidator

/-! ## One record -/

/-- The record `version.json` reads as `data`. -/
def Reads (data : VersionState) (e : EcuStore) : Prop := e.versions = data

section Record

variable {data : VersionState}

theorem keeps_reads_inSlot {α : Type} (slot : Slot) (m : FlashM α) :
    Persist.Keeps (Reads data) (inSlot slot m) :=
  fun _ h ↦ wp_inSlot.mpr ⟨fun _ _ ↦ h, h⟩

theorem keeps_reads_updateJournal (slot : Slot) (state : JournalState)
    (updates : List (String × Field)) :
    Persist.Keeps (Reads data) (SlotManager.updateJournal slot state updates) := by
  refine Persist.keeps_bind (keeps_flashOf slot) fun flash ↦ ?_
  cases flash with
  | none => exact Persist.keeps_pure _
  | some flash => exact keeps_reads_inSlot slot _

theorem keeps_reads_updateControlBlock (slot : Slot) (updates : List (String × Field)) :
    Persist.Keeps (Reads data) (SlotManager.updateControlBlock slot updates) :=
  keeps_updateControlBlock slot updates fun _ ↦ keeps_reads_inSlot slot _

theorem keeps_reads_setActiveSlotControlBlocks (activeSlot : Slot) (confirmed : Bool) :
    Persist.Keeps (Reads data) (SlotManager.setActiveSlotControlBlocks activeSlot confirmed) :=
  Persist.keeps_bind (keeps_reads_updateControlBlock _ _) fun _ ↦
    Persist.keeps_bind (keeps_reads_updateControlBlock _ _) fun _ ↦ Persist.keeps_pure _

theorem keeps_reads_commitPending : Persist.Keeps (Reads data) SlotManager.commitPending :=
  Persist.keeps_bind (keeps_loadState_of fun _ h ↦ h) fun _ ↦
    Persist.keeps_bind (Persist.keeps_write _ fun _ h ↦ h) fun _ ↦
      Persist.keeps_bind (keeps_reads_updateJournal _ _ _) fun _ ↦
        keeps_reads_setActiveSlotControlBlocks _ _

theorem keeps_reads_rollbackPending (reason : String) :
    Persist.Keeps (Reads data) (SlotManager.rollbackPending reason) :=
  Persist.keeps_bind (keeps_loadState_of fun _ h ↦ h) fun _ ↦
    Persist.keeps_bind (Persist.keeps_write _ fun _ h ↦ h) fun _ ↦
      Persist.keeps_bind (keeps_reads_updateJournal _ _ _) fun _ ↦
        Persist.keeps_bind (keeps_reads_updateControlBlock _ _) fun _ ↦
          keeps_reads_setActiveSlotControlBlocks _ _

end Record

/-- The record behind a check that found the version `actual`. -/
def settled (passed : Bool) (actual : String) (data : VersionState) : VersionState :=
  if data.pendingCommit then
    if passed then data.confirm ((normalizeVersion actual).toOption.getD actual)
    else data.rollbackPending "POST_INSTALL_VALIDATION_FAILED"
  else data

theorem pendingCommit_settled (passed : Bool) (actual : String) (data : VersionState) :
    (settled passed actual data).pendingCommit = false := by
  unfold settled
  split
  · split <;> rfl
  · rename_i h
    exact Bool.eq_false_iff.mpr h

/-- A record that is not pending has been settled. -/
theorem settled_of_not_pending {passed : Bool} {actual : String} {data : VersionState}
    (h : data.pendingCommit = false) : settled passed actual data = data := by
  rw [settled, h]
  rfl

theorem validateEcu_versions {passed : Bool} {actual : String} {e : EcuStore}
    (h : (Ecu.PostInstallValidator.validateEcu passed actual e).result = .ok ⟨⟩) :
    ((Ecu.PostInstallValidator.validateEcu passed actual).store e).versions =
      settled passed actual e.versions := by
  have heq := Ecu.PostInstallValidator.validateEcu_eq e passed actual
  rw [Persist.store, heq]
  rw [heq] at h
  cases hpending : e.versions.pendingCommit with
  | false =>
      rw [settled_of_not_pending hpending]
      rfl
  | true =>
      rw [hpending] at h
      cases passed with
      | false =>
          have hkeeps : Persist.Keeps
              (Reads (e.versions.rollbackPending "POST_INSTALL_VALIDATION_FAILED"))
              (SlotManager.rollbackPending "POST_INSTALL_VALIDATION_FAILED") :=
            keeps_reads_rollbackPending _
          rw [settled, hpending]
          exact (hkeeps (e.setVersions
            (e.versions.rollbackPending "POST_INSTALL_VALIDATION_FAILED")) rfl).2
      | true =>
          cases hversion : normalizeVersion actual with
          | error err =>
              exfalso
              simp only [if_true, Operation.run, Ecu.PostInstallValidator.confirm,
                VersionManager.confirmVersion, hversion, Persist.ofExcept, bind] at h
              cases h
          | ok normalized =>
              have hkeeps : Persist.Keeps (Reads (e.versions.confirm normalized))
                  SlotManager.commitPending := keeps_reads_commitPending
              have hstore : (Operation.run (.confirm actual)).store e =
                  SlotManager.commitPending.store (e.setVersions (e.versions.confirm normalized)) := by
                simp only [Operation.run, Ecu.PostInstallValidator.confirm,
                  VersionManager.confirmVersion, hversion]
                rfl
              rw [settled, hpending, hversion]
              exact (congrArg EcuStore.versions hstore).trans
                (hkeeps (e.setVersions (e.versions.confirm normalized)) rfl).2

/-! ## The record behind a run of checks -/

/-- `version_eq` answers that the version was reached. -/
def passes (actual expected : String) : Bool := (versionEq actual expected).toOption == some true

/-- The first check on the files under the key: the discovered version and the expected one. -/
def checkOn (vehicle : Vehicle) (versions : Dict String String) (key : String) :
    List String → Option (String × String)
  | [] => none
  | ecuName :: names =>
      match versions.get? ecuName, (byName vehicle).get? ecuName with
      | some expected, some ecu =>
          if (ecuKey ecu.ecuName).toOption = some key then some (ecu.currentVersion, expected)
          else checkOn vehicle versions key names
      | _, _ => checkOn vehicle versions key names

def settledBy (check : Option (String × String)) (data : VersionState) : VersionState :=
  match check with
  | none => data
  | some (actual, expected) => settled (passes actual expected) actual data

theorem settledBy_of_not_pending {check : Option (String × String)} {data : VersionState}
    (h : data.pendingCommit = false) : settledBy check data = data := by
  cases check with
  | none => rfl
  | some check => exact settled_of_not_pending h

section Run

variable {vehicle : Vehicle} {versions : Dict String String} {stores stores' : Stores}

theorem checkOn_of_missing {ecuName key : String} {names : List String}
    (h : versions.get? ecuName = none ∨ (byName vehicle).get? ecuName = none) :
    checkOn vehicle versions key (ecuName :: names) = checkOn vehicle versions key names := by
  rw [checkOn]
  rcases h with h | h
  · rw [h]
  · rw [h]
    cases versions.get? ecuName <;> rfl

theorem checkOn_of_check {ecuName expected key own : String} {ecu : ECU} {names : List String}
    (hexpected : versions.get? ecuName = some expected)
    (hecu : (byName vehicle).get? ecuName = some ecu) (hown : ecuKey ecu.ecuName = .ok own) :
    checkOn vehicle versions key (ecuName :: names) =
      if key = own then some (ecu.currentVersion, expected)
      else checkOn vehicle versions key names := by
  simp only [checkOn, hexpected, hecu, hown, Except.toOption, Option.some.injEq, eq_comm]

/-- One check settles the record under its own key only. -/
theorem validateTarget_versions {ecuName expected : String} {ecu : ECU} {passed : Bool}
    (hexpected : versions.get? ecuName = some expected)
    (hecu : (byName vehicle).get? ecuName = some ecu)
    (h : validateTarget vehicle versions ecuName stores = (.ok passed, stores')) :
    ∃ own, ecuKey ecu.ecuName = .ok own ∧ passed = passes ecu.currentVersion expected ∧
      ∀ key, (stores' key).versions =
        if key = own then settled passed ecu.currentVersion (stores key).versions
        else (stores key).versions := by
  have hecu' : (Dict.ofPairs (vehicle.getAllEcus.map fun ecu ↦ (ecu.ecuName, ecu))).get? ecuName =
      some ecu := hecu
  simp only [validateTarget, hexpected, hecu'] at h
  cases hpassed : versionEq ecu.currentVersion expected with
  | error err => simp only [hpassed, Prod.mk.injEq, reduceCtorEq, false_and] at h
  | ok answer =>
      cases hkey : ecuKey ecu.ecuName with
      | error err => simp only [hpassed, hkey, Prod.mk.injEq, reduceCtorEq, false_and] at h
      | ok own =>
          simp only [hpassed, hkey, onEcu] at h
          cases hresult :
              (Ecu.PostInstallValidator.validateEcu answer ecu.currentVersion (stores own)).result with
          | error err => simp only [hresult, Prod.mk.injEq, reduceCtorEq, false_and] at h
          | ok _ =>
              simp only [hresult, Prod.mk.injEq, Except.ok.injEq] at h
              obtain ⟨rfl, rfl⟩ := h
              refine ⟨own, rfl, ?_, fun key ↦ ?_⟩
              · rw [passes, hpassed]
                cases answer <;> rfl
              · rw [Function.update_apply]
                split
                · rename_i heq
                  rw [heq]
                  exact validateEcu_versions hresult
                · rfl

/-- Behind the loop the record under a key is settled by the first check on the key. -/
theorem validateTargets_versions {names : List String} {updated : Bool}
    (h : validateTargets vehicle versions names stores = (.ok updated, stores')) (key : String) :
    (stores' key).versions =
      settledBy (checkOn vehicle versions key names) (stores key).versions := by
  induction names generalizing stores updated with
  | nil =>
      obtain ⟨-, rfl⟩ := Prod.mk.inj h
      rfl
  | cons ecuName names ih =>
      rw [validateTargets] at h
      cases htarget : validateTarget vehicle versions ecuName stores with
      | mk result between =>
      cases result with
      | error err => simp only [htarget, Prod.mk.injEq, reduceCtorEq, false_and] at h
      | ok passed =>
      cases hrest : validateTargets vehicle versions names between with
      | mk rest stores'' =>
      cases rest with
      | error err => simp only [htarget, hrest, Prod.mk.injEq, reduceCtorEq, false_and] at h
      | ok rest =>
      simp only [htarget, hrest, Prod.mk.injEq, Except.ok.injEq] at h
      obtain ⟨-, rfl⟩ := h
      have hlater := ih hrest
      cases hexpected : versions.get? ecuName with
      | none =>
          rw [checkOn_of_missing (.inl hexpected), hlater]
          simp only [validateTarget, hexpected, Prod.mk.injEq] at htarget
          rw [htarget.2]
      | some expected =>
      cases hecu : (byName vehicle).get? ecuName with
      | none =>
          have hecu' : (Dict.ofPairs (vehicle.getAllEcus.map fun ecu ↦ (ecu.ecuName, ecu))).get?
              ecuName = none := hecu
          rw [checkOn_of_missing (.inr hecu), hlater]
          simp only [validateTarget, hexpected, hecu', Prod.mk.injEq] at htarget
          rw [htarget.2]
      | some ecu =>
          obtain ⟨own, hown, hpassed, hbetween⟩ := validateTarget_versions hexpected hecu htarget
          rw [hlater, hbetween, checkOn_of_check hexpected hecu hown]
          by_cases hkey : key = own
          · -- the later checks on the key find nothing pending
            rw [if_pos hkey, if_pos hkey,
              settledBy_of_not_pending (pendingCommit_settled _ _ _), settledBy, hpassed]
          · rw [if_neg hkey, if_neg hkey]

end Run

/-! ## The end of the campaign -/

/-- The record has the version as its confirmed version, and nothing is pending. -/
def CommittedAt (target : String) (data : VersionState) : Prop :=
  data.pendingCommit = false ∧ versionEq data.confirmedVersion target = .ok true

/-- The record is committed at the version and was not rolled back to it. -/
def ConfirmedAt (target : String) (data : VersionState) : Prop :=
  CommittedAt target data ∧ data.lastBootOutcome = .confirmed

/-- The record of an ECU with a target in the campaign has the property of its target version. -/
def RecordHas (property : String → VersionState → Prop) (campaign : Campaign) (stores : Stores)
    (name : String) : Prop :=
  ∃ target key, (targetByName campaign).get? name = some target ∧ ecuKey name = .ok key ∧
    property target.targetVersion (stores key).versions

/-- No ECU is committed to its target while a dependency was flashed and is not confirmed. -/
def DependenciesConfirmed (campaign : Campaign) (p : DynamicUpdatePlan) (log : List Event)
    (stores : Stores) : Prop :=
  ∀ n d, d ∈ p.dependencies n → (d, .flashed) ∈ resultsOf log →
    RecordHas CommittedAt campaign stores n → RecordHas ConfirmedAt campaign stores d

/-- The check lets the record end as committed at the version. -/
def EndsCommitted (check : Option (String × String)) (target : String) (data : VersionState) :
    Prop :=
  if data.pendingCommit then
    ∃ actual expected, check = some (actual, expected) ∧
      versionEq (if passes actual expected then actual else data.confirmedVersion) target = .ok true
  else versionEq data.confirmedVersion target = .ok true

/-- The check passes at the version; or nothing was pending, and the record is confirmed at it. -/
def EndsConfirmed (check : Option (String × String)) (target : String) (data : VersionState) :
    Prop :=
  if data.pendingCommit then
    ∃ actual expected, check = some (actual, expected) ∧ passes actual expected = true ∧
      versionEq actual target = .ok true
  else versionEq data.confirmedVersion target = .ok true ∧ data.lastBootOutcome = .confirmed

theorem passes_iff {actual expected : String} :
    passes actual expected = true ↔ versionEq actual expected = .ok true := by
  rw [passes, beq_iff_eq]
  cases versionEq actual expected with
  | error err => simp [Except.toOption]
  | ok answer => simp [Except.toOption]

/-- A confirmed record holds the version that was seen. -/
theorem versionEq_normalized {actual expected target : String}
    (h : passes actual expected = true) :
    versionEq ((normalizeVersion actual).toOption.getD actual) target = versionEq actual target := by
  have hpassed := passes_iff.mp h
  cases hactual : parseVersion actual with
  | error err =>
      rw [versionEq, hactual] at hpassed
      cases hpassed
  | ok v =>
      have hnormalized : normalizeVersion actual = .ok v.toString := by
        rw [normalizeVersion, hactual]
        rfl
      have hback : parseVersion v.toString = .ok v := SemVer.parse_toString_of_parse hactual
      rw [hnormalized]
      change versionEq v.toString target = versionEq actual target
      rw [versionEq, versionEq, hback, hactual]

section Ends

variable {check : Option (String × String)} {target : String} {data : VersionState}

theorem committedAt_settledBy :
    CommittedAt target (settledBy check data) ↔ EndsCommitted check target data := by
  cases hpending : data.pendingCommit with
  | false =>
      simp [settledBy_of_not_pending hpending, CommittedAt, EndsCommitted, hpending]
  | true =>
      cases check with
      | none => simp [settledBy, CommittedAt, EndsCommitted, hpending]
      | some check =>
          obtain ⟨actual, expected⟩ := check
          cases hpasses : passes actual expected with
          | true =>
              have hversion := @versionEq_normalized actual expected target hpasses
              simp [settledBy, settled, CommittedAt, EndsCommitted, hpending, hpasses,
                VersionState.confirm, hversion]
          | false =>
              simp [settledBy, settled, CommittedAt, EndsCommitted, hpending, hpasses,
                VersionState.rollbackPending]

theorem confirmedAt_settledBy :
    ConfirmedAt target (settledBy check data) ↔ EndsConfirmed check target data := by
  rw [ConfirmedAt, committedAt_settledBy]
  cases hpending : data.pendingCommit with
  | false =>
      simp [settledBy_of_not_pending hpending, EndsCommitted, EndsConfirmed, hpending]
  | true =>
      cases check with
      | none => simp [EndsCommitted, EndsConfirmed, hpending]
      | some check =>
          obtain ⟨actual, expected⟩ := check
          cases hpasses : passes actual expected with
          | true =>
              simp [settledBy, settled, EndsCommitted, EndsConfirmed, hpending, hpasses,
                VersionState.confirm]
          | false =>
              simp [settledBy, settled, EndsCommitted, EndsConfirmed, hpending, hpasses,
                VersionState.rollbackPending]

end Ends

/-- A record and the check that meets it. -/
def Ends (property : Option (String × String) → String → VersionState → Prop)
    (campaign : Campaign) (discovered : Vehicle) (stores : Stores) (name : String) : Prop :=
  ∃ target key, (targetByName campaign).get? name = some target ∧ ecuKey name = .ok key ∧
    property (checkOn discovered (targetVersions campaign) key
      ((validationTargetNames campaign).mergeSort fun a b ↦ decide (a ≤ b)))
      target.targetVersion (stores key).versions

section Campaign

variable {campaign : Campaign} {polls : List (Vehicle × Bool)} {discovered : Vehicle}
  {stores stores' : Stores} {updated : Bool}

theorem validate_versions
    (hwait : waitForExpectedVersions (targetVersions campaign) polls = .ok (some discovered))
    (h : validate campaign polls stores = (.ok (some updated), stores')) (key : String) :
    (stores' key).versions = settledBy (checkOn discovered (targetVersions campaign) key
      ((validationTargetNames campaign).mergeSort fun a b ↦ decide (a ≤ b)))
      (stores key).versions := by
  simp only [validate, hwait] at h
  cases htargets : validateTargets discovered (targetVersions campaign)
    ((validationTargetNames campaign).mergeSort fun a b ↦ decide (a ≤ b)) stores with
  | mk result between =>
  cases result with
  | error err => simp only [htargets, Prod.mk.injEq, reduceCtorEq, false_and] at h
  | ok all =>
      simp only [htargets, Prod.mk.injEq] at h
      obtain ⟨-, rfl⟩ := h
      exact validateTargets_versions htargets key

theorem recordHas_iff {property : String → VersionState → Prop}
    {ends : Option (String × String) → String → VersionState → Prop}
    (hproperty : ∀ check target data, property target (settledBy check data) ↔
      ends check target data)
    (hwait : waitForExpectedVersions (targetVersions campaign) polls = .ok (some discovered))
    (h : validate campaign polls stores = (.ok (some updated), stores')) (name : String) :
    RecordHas property campaign stores' name ↔ Ends ends campaign discovered stores name := by
  unfold RecordHas Ends
  simp only [validate_versions hwait h, hproperty]

end Campaign

/-- No ECU ends committed in front of an unconfirmed dependency exactly if every dependency
passes its own check that was flashed for an ECU that ends committed. -/
theorem dependencies_confirmed_iff (x : Execution) (p : DynamicUpdatePlan) (campaign : Campaign)
    (polls : List (Vehicle × Bool)) (discovered : Vehicle) (stores stores' : Stores) (updated : Bool)
    (hwait : waitForExpectedVersions (targetVersions campaign) polls = .ok (some discovered))
    (hvalidate : validate campaign polls stores = (.ok (some updated), stores')) :
    DependenciesConfirmed campaign p x.execute.1 stores' ↔
      ∀ n d, d ∈ p.dependencies n → (d, .flashed) ∈ resultsOf x.execute.1 →
        Ends EndsCommitted campaign discovered stores n →
        Ends EndsConfirmed campaign discovered stores d := by
  have hcommitted := @recordHas_iff campaign polls discovered stores stores' updated CommittedAt
    EndsCommitted (fun _ _ _ ↦ committedAt_settledBy) hwait hvalidate
  have hconfirmed := @recordHas_iff campaign polls discovered stores stores' updated ConfirmedAt
    EndsConfirmed (fun _ _ _ ↦ confirmedAt_settledBy) hwait hvalidate
  unfold DependenciesConfirmed
  simp only [hcommitted, hconfirmed]

/-! ## The cluster in front of a BCM that stays behind -/

/-- The demo vehicle behind the campaign: the BCM still answers with its old version. -/
def mixedVehicle : Vehicle where
  ecus := Dict.ofPairs
    [(0x201, demoEcu 0x201 "Gateway ECU" "2.0.0"), (0x202, demoEcu 0x202 "BCM ECU" "1.0.0"),
     (0x203, demoEcu 0x203 "Cluster ECU" "2.0.0")]

/-- An updated ECU that waits for the validator. -/
def waitingEcu : EcuStore where
  version := some {
    currentVersion := "2.0.0"
    activeSlot := .B
    pendingSlot := some .B
    pendingCommit := true
    lastBootOutcome := .pendingCommit }

def mixedStores : Stores := fun key ↦ if key = "gateway" then {} else waitingEcu

def mixedExecution (p : DynamicUpdatePlan) : Execution :=
  planExecution demoResolver demoVehicle demoEligible p 1 (fun _ _ ↦ .ok true) true

theorem exists_mixedPlan : ∃ p, plan demoResolver demoVehicle demoCampaign demoEligible = .ok p ∧
    p.executable = true ∧ p.dependencies "Cluster ECU" = ["BCM ECU"] ∧
    resultsOf (mixedExecution p).execute.1 =
      [("BCM ECU", .flashed), ("Cluster ECU", .flashed)] := by
  have h : (plan demoResolver demoVehicle demoCampaign demoEligible).toOption.map
      (fun p ↦ (p.executable, p.dependencies "Cluster ECU",
        resultsOf (mixedExecution p).execute.1)) =
      some (true, ["BCM ECU"], [("BCM ECU", .flashed), ("Cluster ECU", .flashed)]) := by
    decide +kernel
  cases hp : plan demoResolver demoVehicle demoCampaign demoEligible with
  | error e => simp [hp, Except.toOption] at h
  | ok p =>
      rw [hp, Except.toOption, Option.map_some, Option.some.injEq] at h
      simp only [Prod.mk.injEq] at h
      exact ⟨p, rfl, h⟩

theorem waitForExpectedVersions_mixed :
    waitForExpectedVersions (targetVersions demoCampaign) [(mixedVehicle, true)] =
      .ok (some mixedVehicle) := by
  have h : (allTargetsRunning mixedVehicle (targetVersions demoCampaign)).toOption = some false := by
    decide +kernel
  cases hrunning : allTargetsRunning mixedVehicle (targetVersions demoCampaign) with
  | error e =>
      rw [hrunning] at h
      cases h
  | ok running =>
      rw [hrunning, Except.toOption, Option.some.injEq] at h
      simp only [waitForExpectedVersions, hrunning, h, bind, Except.bind]
      rfl

theorem sortedTargetNames_demo :
    ((validationTargetNames demoCampaign).mergeSort fun a b ↦ decide (a ≤ b)) =
      ["BCM ECU", "Cluster ECU", "Gateway ECU"] := by
  have hnames : validationTargetNames demoCampaign =
      ["Cluster ECU", "Gateway ECU", "BCM ECU"] := by
    decide +kernel
  rw [hnames]
  simp [List.mergeSort, List.MergeSort.Internal.splitInTwo]

theorem exists_mixedEnd : ∃ stores',
    validate demoCampaign [(mixedVehicle, true)] mixedStores = (.ok (some false), stores') ∧
    RecordHas CommittedAt demoCampaign stores' "Cluster ECU" ∧
    ¬ RecordHas ConfirmedAt demoCampaign stores' "BCM ECU" := by
  have h : ((validateTargets mixedVehicle (targetVersions demoCampaign)
      ["BCM ECU", "Cluster ECU", "Gateway ECU"] mixedStores).1.toOption,
      ["cluster", "bcm"].map fun key ↦ ((validateTargets mixedVehicle (targetVersions demoCampaign)
        ["BCM ECU", "Cluster ECU", "Gateway ECU"] mixedStores).2 key).versions) =
      (some false, [
        ((waitingEcu.versions).confirm "2.0.0"),
        ((waitingEcu.versions).rollbackPending "POST_INSTALL_VALIDATION_FAILED")]) := by
    decide +kernel
  cases htargets : validateTargets mixedVehicle (targetVersions demoCampaign)
    ["BCM ECU", "Cluster ECU", "Gateway ECU"] mixedStores with
  | mk result stores' =>
  rw [htargets, Prod.mk.injEq] at h
  obtain ⟨hresult, hversions⟩ := h
  simp only [List.map_cons, List.map_nil, List.cons.injEq] at hversions
  obtain ⟨hcluster, hbcm, -⟩ := hversions
  cases result with
  | error e => cases hresult
  | ok answer =>
  rw [Except.toOption, Option.some.injEq] at hresult
  refine ⟨stores', ?_, ?_, ?_⟩
  · simp only [validate, waitForExpectedVersions_mixed, sortedTargetNames_demo, htargets, hresult]
  · refine ⟨demoTarget "Cluster ECU" false 3, "cluster", by rfl, by rfl, ?_⟩
    rw [hcluster]
    exact ⟨rfl, by decide +kernel⟩
  · rintro ⟨target, key, -, hkey, -, houtcome⟩
    have hkey' : ecuKey "BCM ECU" = .ok "bcm" := by rfl
    obtain rfl := Except.ok.inj (hkey'.symm.trans hkey)
    rw [hbcm] at houtcome
    cases houtcome

theorem cluster_committed_without_bcm :
    ¬ ∀ resolver vehicle campaign eligible p flashRetryCount transport polls stores updated stores',
      plan resolver vehicle campaign eligible = .ok p → p.executable = true →
      validate campaign polls stores = (.ok (some updated), stores') →
      DependenciesConfirmed campaign p
        (planExecution resolver vehicle eligible p flashRetryCount transport true).execute.1
        stores' := by
  intro hclaim
  obtain ⟨p, hplan, hexecutable, hdependencies, hresults⟩ := exists_mixedPlan
  obtain ⟨stores', hvalidate, hcluster, hbcm⟩ := exists_mixedEnd
  have hall := hclaim _ _ _ _ p 1 (fun _ _ ↦ .ok true) _ _ _ stores' hplan hexecutable hvalidate
  have hflashed : ("BCM ECU", Status.flashed) ∈ resultsOf (mixedExecution p).execute.1 := by
    rw [hresults]
    exact List.mem_cons_self
  exact hbcm (hall "Cluster ECU" "BCM ECU" (by rw [hdependencies]; exact List.mem_cons_self)
    hflashed hcluster)

theorem dependencies_confirmed_mixed : ∃ p,
    plan demoResolver demoVehicle demoCampaign demoEligible = .ok p ∧
    ¬ ∀ n d, d ∈ p.dependencies n → (d, .flashed) ∈ resultsOf (mixedExecution p).execute.1 →
      Ends EndsCommitted demoCampaign mixedVehicle mixedStores n →
      Ends EndsConfirmed demoCampaign mixedVehicle mixedStores d := by
  obtain ⟨p, hplan, -, hdependencies, hresults⟩ := exists_mixedPlan
  obtain ⟨stores', hvalidate, hcluster, hbcm⟩ := exists_mixedEnd
  refine ⟨p, hplan, fun hall ↦ ?_⟩
  have hend := (dependencies_confirmed_iff (mixedExecution p) p demoCampaign [(mixedVehicle, true)]
    mixedVehicle mixedStores stores' false waitForExpectedVersions_mixed hvalidate).mpr hall
  refine hbcm (hend "Cluster ECU" "BCM ECU" ?_ ?_ hcluster)
  · rw [hdependencies]
    exact List.mem_cons_self
  · rw [hresults]
    exact List.mem_cons_self

end VehicleOta.Tcu
