import VehicleOta.Ecu.ConfirmedImage
import VehicleOta.Ecu.ManagerCalls

/-!
# A validation that overlaps the reboot

The version that the TCU waits for is visible behind `boot_pending_version`, in front of
`activate_pending`.  The records agree in the end if and only if the slot was activated before it
was committed.
-/

namespace VehicleOta.Ecu

open CrashLogic FirmwareInstaller ThreadLogic ManagerCall

/-! ## Phases -/

/-- What has become of the staged slot; it is stale where `commit_pending` has confirmed the old
slot in its place. -/
inductive SlotPhase where
  | pending
  | activated
  | stale
  | committed
  deriving DecidableEq

def SlotPhase.step : ManagerCall → SlotPhase → SlotPhase
  | activatePending, pending => activated
  | commitPending, pending => stale
  | commitPending, activated => committed
  | _, phase => phase

structure Phase where
  confirmed : Bool
  slot : SlotPhase

def Phase.step (phase : Phase) : ManagerCall → Phase
  | confirmVersion _ => { phase with confirmed := true }
  | c => { phase with slot := phase.slot.step c }

def Phase.after (calls : List ManagerCall) : Phase := calls.foldl Phase.step ⟨false, .pending⟩

theorem Phase.after_append (calls : List ManagerCall) (c : ManagerCall) :
    Phase.after (calls ++ [c]) = (Phase.after calls).step c := by
  rw [Phase.after, List.foldl_append]
  rfl

/-- Every `commit_pending` comes behind an `activate_pending`. -/
def ActivatedFirst (calls : List ManagerCall) : Prop :=
  ∀ before later, calls = before ++ commitPending :: later → activatePending ∈ before

/-! ## The records in each phase -/

structure VersionPending (p : Slot) (data : VersionState) : Prop where
  pendingSlot : data.pendingSlot = some p
  pendingCommit : data.pendingCommit = true
  pendingVersion : data.pendingVersion ≠ ""

structure VersionConfirmed (p : Slot) (data : VersionState) : Prop where
  pendingSlot : data.pendingSlot = none
  pendingCommit : data.pendingCommit = false
  pendingVersion : data.pendingVersion = ""
  activeSlot : data.activeSlot = p
  confirmedSlot : data.confirmedSlot = p

/-- The slot record in a phase of the slot `p`. -/
inductive SlotRecord (p : Slot) : SlotPhase → SlotState → Prop
  | pending {state : SlotState} (hpending : state.pendingSlot = some p)
      (hactive : state.activeSlot = p.other) (hboots : state.bootAttempts = 0) :
      SlotRecord p .pending state
  | activated {state : SlotState} (hpending : state.pendingSlot = some p)
      (hactive : state.activeSlot = p) : SlotRecord p .activated state
  | stale {state : SlotState} (hpending : state.pendingSlot = none)
      (hactive : state.activeSlot = p.other) : SlotRecord p .stale state
  | committed {state : SlotState} (hpending : state.pendingSlot = none)
      (hactive : state.activeSlot = p) (hconfirmed : state.confirmedSlot = p) :
      SlotRecord p .committed state

namespace SlotRecord

variable {p q : Slot} {phase : SlotPhase} {state : SlotState}

theorem eq_of_pending (h : SlotRecord p phase state) (hq : state.pendingSlot = some q) : p = q := by
  cases h with
  | pending hpending => exact Option.some.inj (hpending.symm.trans hq)
  | activated hpending => exact Option.some.inj (hpending.symm.trans hq)
  | stale hpending => cases hpending.symm.trans hq
  | committed hpending => cases hpending.symm.trans hq

theorem not_exceeded (h : SlotRecord p phase state) (hphase : phase ≠ .activated)
    (hlimit : 1 ≤ state.maxBootAttempts) :
    (state.pendingSlot.isSome && decide (state.maxBootAttempts ≤ state.bootAttempts)) = false := by
  cases h with
  | pending hpending hactive hboots =>
      simp [hboots]
      omega
  | activated => exact absurd rfl hphase
  | stale hpending => simp [hpending]
  | committed hpending => simp [hpending]

theorem activate_none (h : SlotRecord p phase state) (hnone : state.pendingSlot = none) :
    SlotRecord p (phase.step .activatePending) state := by
  cases h with
  | pending hpending => cases hpending.symm.trans hnone
  | activated hpending => cases hpending.symm.trans hnone
  | stale hpending hactive => exact .stale hpending hactive
  | committed hpending hactive hconfirmed => exact .committed hpending hactive hconfirmed

theorem activate (h : SlotRecord p phase state) (hp : state.pendingSlot = some p) :
    SlotRecord p (phase.step .activatePending) (state.activatePending p) := by
  cases h with
  | pending => exact .activated hp rfl
  | activated => exact .activated hp rfl
  | stale hpending => cases hpending.symm.trans hp
  | committed hpending => cases hpending.symm.trans hp

/-- `commit_pending` confirms the active slot, whichever is pending. -/
theorem commit (h : SlotRecord p phase state) :
    SlotRecord p (phase.step .commitPending) state.commitPending := by
  cases h with
  | pending hpending hactive => exact .stale rfl hactive
  | activated hpending hactive => exact .committed rfl hactive hactive
  | stale hpending hactive => exact .stale rfl hactive
  | committed hpending hactive => exact .committed rfl hactive hactive

end SlotRecord

/-- Both records of an ECU whose slot `p` was staged. -/
structure Records (p : Slot) (phase : Phase) (e : EcuStore) : Prop where
  sound : e.Sound
  limit : 1 ≤ e.slotInfo.maxBootAttempts
  stored : e.slotState ≠ none
  closed : (e.slots p).incomplete = false
  version : if phase.confirmed then VersionConfirmed p e.versions else VersionPending p e.versions
  slot : SlotRecord p phase.slot e.slotInfo

namespace Records

variable {p : Slot} {phase : Phase} {e t : EcuStore}

theorem quiet (h : Records p phase e) (hq : e.Quiet t) : Records p phase t where
  sound := hq.sound h.sound
  limit := hq.slotInfo ▸ h.limit
  stored := hq.slotState ▸ h.stored
  closed := hq.incomplete h.closed
  version := hq.versions ▸ h.version
  slot := hq.slotInfo ▸ h.slot

theorem openingWrites (h : Records p phase e) : SlotManager.openingWrites e = [] :=
  if_neg h.stored

theorem setSlotInfo_self (h : Records p phase e) : e.setSlotInfo e.slotInfo = e :=
  EcuStore.setSlotInfo_slotInfo h.stored

/-! ### The calls -/

theorem exec_of_performs {c : ManagerCall} {ws : List (Write EcuFile EcuStore)}
    {C : EcuFile → EcuStore → Prop} {P : c.Answer → EcuStore → Prop} (h : c.run.performs ws C P e) :
    ∃ a t, exec c e = (.ok a, t) ∧ P a t := by
  obtain ⟨a, ha, haP⟩ := h.run
  exact ⟨a, _, Prod.ext ha rfl, haP⟩

theorem exec_pendingJournalRequiresRecovery (h : Records p phase e) :
    exec .pendingJournalRequiresRecovery e = (.ok false, e) := by
  cases hpending : e.slotInfo.pendingSlot with
  | none =>
      obtain ⟨a, t, hexec, rfl, rfl⟩ := exec_of_performs (c := .pendingJournalRequiresRecovery)
        (SlotManager.pendingJournalRequiresRecovery_none hpending)
      rw [hexec, h.setSlotInfo_self]
  | some q =>
      obtain rfl := h.slot.eq_of_pending hpending
      obtain ⟨a, t, hexec, rfl, rfl⟩ := exec_of_performs (c := .pendingJournalRequiresRecovery)
        (SlotManager.pendingJournalRequiresRecovery_some hpending)
      rw [hexec, h.closed]

theorem exec_hasPendingCommit (h : Records p phase e) :
    exec .hasPendingCommit e = (.ok !phase.confirmed, e) := by
  have hcommit : e.versions.pendingCommit = !phase.confirmed := by
    have hversion := h.version
    cases hconfirmed : phase.confirmed with
    | true =>
        rw [hconfirmed] at hversion
        exact hversion.pendingCommit
    | false =>
        rw [hconfirmed] at hversion
        exact hversion.pendingCommit
  rw [← hcommit]
  rfl

theorem exec_shouldRollbackPending (h : Records p phase e) (hslot : phase.slot ≠ .activated) :
    exec .shouldRollbackPending e = (.ok false, e) := by
  have hload := SlotManager.loadState_performs (e := e)
  rw [h.openingWrites, h.setSlotInfo_self] at hload
  have hperforms : SlotManager.shouldRollbackPending.performs [] (fun _ _ ↦ False)
      (fun r t ↦ r = false ∧ t = e) e := by
    apply Persist.performs_bind hload
    rintro _ _ ⟨rfl, rfl⟩
    exact Persist.performs_pure _ ⟨h.slot.not_exceeded hslot h.limit, rfl⟩
  obtain ⟨a, t, hexec, rfl, rfl⟩ := exec_of_performs (c := .shouldRollbackPending) hperforms
  exact hexec

theorem exec_getCurrentVersion (e : EcuStore) :
    exec .getCurrentVersion e = (.ok e.versions.currentVersion, e) := rfl

theorem versionPending (h : Records p phase e) (hconfirmed : phase.confirmed = false) :
    VersionPending p e.versions := by
  simpa [hconfirmed] using h.version

theorem versionConfirmed (h : Records p phase e) (hconfirmed : phase.confirmed = true) :
    VersionConfirmed p e.versions := by
  simpa [hconfirmed] using h.version

/-- A new version record next to the old slot record. -/
theorem setVersions (h : Records p phase e) (data : VersionState) (confirmed : Bool)
    (hdata : if confirmed then VersionConfirmed p data else VersionPending p data) :
    Records p { phase with confirmed := confirmed } (e.setVersions data) :=
  ⟨h.sound, h.limit, h.stored, h.closed, hdata, h.slot⟩

theorem setSlotInfo (h : Records p phase e) {state : SlotState} {slot : SlotPhase}
    (hstate : SlotRecord p slot state) (hmax : state.maxBootAttempts = e.slotInfo.maxBootAttempts) :
    Records p { phase with slot := slot } (e.setSlotInfo state) :=
  ⟨h.sound, by simpa [hmax] using h.limit, by simp [EcuStore.setSlotInfo], h.closed, h.version,
    hstate⟩

theorem exec_bootPendingVersion (h : Records p phase e) :
    ∃ a t, exec .bootPendingVersion e = (.ok a, t) ∧ Records p (phase.step .bootPendingVersion) t ∧
      (phase.confirmed = false → t.versions.currentVersion = e.versions.pendingVersion) := by
  cases hconfirmed : phase.confirmed with
  | true =>
      have hversion := (h.versionConfirmed hconfirmed).pendingVersion
      have hrun : VersionManager.bootPendingVersion e = ⟨[], .ok false⟩ := by
        rw [VersionManager.bootPendingVersion, VersionManager.load, Persist.reads_bind,
          if_pos hversion]
        rfl
      refine ⟨false, e, ?_, h, fun hno ↦ absurd hno (by simp)⟩
      have hresult := congrArg Run.result hrun
      have hstore := congrArg (fun r ↦ storeAfter e r.writes) hrun
      exact Prod.ext hresult hstore
  | false =>
      have hversion := h.versionPending hconfirmed
      obtain ⟨a, t, hexec, rfl⟩ := exec_of_performs (c := .bootPendingVersion)
        (VersionManager.bootPendingVersion_performs hversion.pendingVersion)
      refine ⟨a, _, hexec, ?_, fun _ ↦ rfl⟩
      have hbooted : VersionPending p e.versions.bootPending :=
        ⟨hversion.pendingSlot, rfl, hversion.pendingVersion⟩
      exact h.setVersions e.versions.bootPending phase.confirmed (by simpa [hconfirmed] using hbooted)

theorem exec_activatePending (h : Records p phase e) :
    ∃ a t, exec .activatePending e = (.ok a, t) ∧ Records p (phase.step .activatePending) t := by
  cases hpending : e.slotInfo.pendingSlot with
  | none =>
      obtain ⟨a, t, hexec, -, rfl⟩ := exec_of_performs (c := .activatePending)
        (SlotManager.activatePending_none hpending)
      rw [h.setSlotInfo_self] at hexec
      exact ⟨a, e, hexec, { h with slot := h.slot.activate_none hpending }⟩
  | some q =>
      obtain rfl := h.slot.eq_of_pending hpending
      obtain ⟨a, t, hexec, -, hquiet⟩ := exec_of_performs (c := .activatePending)
        (SlotManager.activatePending_some hpending h.sound)
      exact ⟨a, t, hexec, Records.quiet (h.setSlotInfo (h.slot.activate hpending) rfl) hquiet⟩

theorem exec_confirmVersion (h : Records p phase e) {actual normalized : String}
    (hversion : normalizeVersion actual = .ok normalized) :
    ∃ a t, exec (.confirmVersion actual) e = (.ok a, t) ∧
      Records p (phase.step (.confirmVersion actual)) t := by
  obtain ⟨a, t, hexec, rfl⟩ := exec_of_performs (c := .confirmVersion actual)
    (VersionManager.confirmVersion_performs hversion)
  refine ⟨a, _, hexec, h.setVersions _ true ?_⟩
  have hactive : e.versions.pendingSlot.getD e.versions.activeSlot = p := by
    cases hconfirmed : phase.confirmed with
    | true =>
        have hdata := h.versionConfirmed hconfirmed
        rw [hdata.pendingSlot, Option.getD_none, hdata.activeSlot]
    | false => rw [(h.versionPending hconfirmed).pendingSlot, Option.getD_some]
  exact ⟨rfl, rfl, rfl, hactive, hactive⟩

theorem exec_commitPending (h : Records p phase e) :
    ∃ a t, exec .commitPending e = (.ok a, t) ∧ Records p (phase.step .commitPending) t := by
  obtain ⟨a, t, hexec, hquiet⟩ := exec_of_performs (c := .commitPending)
    (SlotManager.commitPending_performs h.sound)
  exact ⟨a, t, hexec, Records.quiet (h.setSlotInfo h.slot.commit rfl) hquiet⟩

end Records

/-! ## Where the threads are -/

/-- The place of the reboot, and whether it has made its call of `activate_pending`. -/
inductive RebootAt : ManagerThread → Bool → Prop
  | journal : RebootAt RebootManager.rebootThread false
  | commit : RebootAt RebootManager.commitThread false
  | limit : RebootAt RebootManager.attemptLimitThread false
  | boot : RebootAt RebootManager.bootThread false
  | bootVersion : RebootAt RebootManager.bootVersionThread false
  | activate : RebootAt RebootManager.activateThread false
  | showVersion : RebootAt RebootManager.showVersion true
  | done : RebootAt .done true

/-- The place of the validation, and whether it has confirmed the version and committed the slot. -/
inductive ValidateAt (actual : String) : ManagerThread → Bool → Bool → Prop
  | start : ValidateAt actual (PostInstallValidator.validateThread true actual) false false
  | confirm : ValidateAt actual (PostInstallValidator.confirmThread actual) false false
  | commit : ValidateAt actual PostInstallValidator.commitThread true false
  | done : ValidateAt actual .done true true

/-- The phases of the slot, once `activate_pending` and `commit_pending` were called or not. -/
inductive Reached : Bool → Bool → SlotPhase → Prop
  | pending : Reached false false .pending
  | activated : Reached true false .activated
  | stale (activated : Bool) : Reached activated true .stale
  | committed : Reached true true .committed

theorem Reached.activate {activated committed : Bool} {phase : SlotPhase}
    (h : Reached activated committed phase) :
    Reached true committed (phase.step .activatePending) := by
  cases h with
  | pending => exact .activated
  | activated => exact .activated
  | stale => exact .stale true
  | committed => exact .committed

theorem Reached.commit {activated committed : Bool} {phase : SlotPhase}
    (h : Reached activated committed phase) :
    Reached activated true (phase.step .commitPending) := by
  cases h with
  | pending => exact .stale false
  | activated => exact .committed
  | stale => exact .stale _
  | committed => exact .committed

theorem Reached.ne_activated {committed : Bool} {phase : SlotPhase}
    (h : Reached false committed phase) : phase ≠ .activated := by
  rintro rfl
  cases h

section Steps

variable {p : Slot} {phase : Phase} {e : EcuStore} {activated committed : Bool}
  {thread : ManagerThread} {c : ManagerCall} {next : c.Answer → ManagerThread}

/-- A call of the reboot: no branch that rolls back is taken, and the version stays as confirmed as
it was. -/
theorem RebootAt.call (h : RebootAt thread activated) (hthread : thread = .call c next)
    (hreached : Reached activated committed phase.slot) (hrecords : Records p phase e) :
    ∃ activated', RebootAt (.resume next (exec c e).1) activated' ∧
      Reached activated' committed (phase.step c).slot ∧
      (phase.step c).confirmed = phase.confirmed ∧ Records p (phase.step c) (exec c e).2 := by
  cases h with
  | journal =>
      cases hthread
      rw [hrecords.exec_pendingJournalRequiresRecovery]
      exact ⟨false, .commit, hreached, rfl, hrecords⟩
  | commit =>
      cases hthread
      rw [hrecords.exec_hasPendingCommit]
      refine ⟨false, ?_, hreached, rfl, hrecords⟩
      cases phase.confirmed with
      | true => exact .boot
      | false => exact .limit
  | limit =>
      cases hthread
      rw [hrecords.exec_shouldRollbackPending hreached.ne_activated]
      exact ⟨false, .boot, hreached, rfl, hrecords⟩
  | boot =>
      cases hthread
      rw [hrecords.exec_hasPendingCommit]
      refine ⟨false, ?_, hreached, rfl, hrecords⟩
      cases phase.confirmed with
      | true => exact .activate
      | false => exact .bootVersion
  | bootVersion =>
      cases hthread
      obtain ⟨a, t, hexec, hnext, -⟩ := hrecords.exec_bootPendingVersion
      rw [hexec]
      exact ⟨false, .activate, hreached, rfl, hnext⟩
  | activate =>
      cases hthread
      obtain ⟨a, t, hexec, hnext⟩ := hrecords.exec_activatePending
      rw [hexec]
      exact ⟨true, .showVersion, hreached.activate, rfl, hnext⟩
  | showVersion =>
      cases hthread
      exact ⟨true, .done, hreached, rfl, hrecords⟩
  | done => cases hthread

theorem ValidateAt.call {actual normalized : String} (hversion : normalizeVersion actual = .ok normalized)
    (h : ValidateAt actual thread phase.confirmed committed) (hthread : thread = .call c next)
    (hreached : Reached activated committed phase.slot) (hrecords : Records p phase e) :
    ∃ committed', ValidateAt actual (.resume next (exec c e).1) (phase.step c).confirmed committed' ∧
      Reached activated committed' (phase.step c).slot ∧ Records p (phase.step c) (exec c e).2 := by
  generalize hconfirmed : phase.confirmed = confirmed at h
  cases h with
  | start =>
      cases hthread
      rw [hrecords.exec_hasPendingCommit, hconfirmed]
      refine ⟨false, ?_, hreached, hrecords⟩
      have hstep : (phase.step .hasPendingCommit).confirmed = false := hconfirmed
      rw [hstep]
      exact .confirm
  | confirm =>
      cases hthread
      obtain ⟨a, t, hexec, hnext⟩ := hrecords.exec_confirmVersion hversion
      rw [hexec]
      exact ⟨false, .commit, hreached, hnext⟩
  | commit =>
      cases hthread
      obtain ⟨a, t, hexec, hnext⟩ := hrecords.exec_commitPending
      have hstep : (phase.step .commitPending).confirmed = true := hconfirmed
      rw [hexec, hstep]
      exact ⟨true, .done, hreached.commit, hnext⟩
  | done => cases hthread

end Steps

end VehicleOta.Ecu
