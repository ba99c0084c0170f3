import VehicleOta.Ecu.Operations
import VehicleOta.Trace.Threads

/-!
# The calls of the managers

A reboot of the ECU and its validation by the TCU share `version.json` and `slot_state.json`.
Each of them is a thread of manager calls, and each call loads, changes and saves its file at once.
-/

namespace VehicleOta.Ecu

open CrashLogic ThreadLogic

inductive ManagerCall where
  | pendingJournalRequiresRecovery
  | hasPendingCommit
  | shouldRollbackPending
  | bootPendingVersion
  | activatePending
  | getCurrentVersion
  | confirmVersion (version : String)
  | commitPending
  | rollbackPendingVersion (reason : String)
  | rollbackPending (reason : String)
  deriving DecidableEq

namespace ManagerCall

def Answer : ManagerCall → Type
  | pendingJournalRequiresRecovery | hasPendingCommit | shouldRollbackPending => Bool
  | bootPendingVersion | confirmVersion _ | rollbackPendingVersion _ => Bool
  | activatePending => Option Slot
  | getCurrentVersion => String
  | commitPending | rollbackPending _ => PUnit

def run : (c : ManagerCall) → EcuM c.Answer
  | pendingJournalRequiresRecovery => SlotManager.pendingJournalRequiresRecovery
  | hasPendingCommit => VersionManager.hasPendingCommit
  | shouldRollbackPending => SlotManager.shouldRollbackPending
  | bootPendingVersion => VersionManager.bootPendingVersion
  | activatePending => SlotManager.activatePending
  | getCurrentVersion => VersionManager.getCurrentVersion
  | confirmVersion version => VersionManager.confirmVersion version
  | commitPending => SlotManager.commitPending
  | rollbackPendingVersion reason => VersionManager.rollbackPendingVersion reason
  | rollbackPending reason => SlotManager.rollbackPending reason

/-- A call is atomic. -/
def exec (c : ManagerCall) (e : EcuStore) : Except PyError c.Answer × EcuStore :=
  ((c.run e).result, c.run.store e)

end ManagerCall

abbrev ManagerThread := Thread ManagerCall.Answer

open ManagerCall

/-! ## The threads -/

namespace RebootManager

/-- The last line of each branch reads the version for the console record. -/
def showVersion : ManagerThread := .call getCurrentVersion fun _ ↦ .done

def rollbackThread (reason : String) : ManagerThread :=
  .call (rollbackPendingVersion reason) fun _ ↦ .call (rollbackPending reason) fun _ ↦ showVersion

def activateThread : ManagerThread := .call activatePending fun _ ↦ showVersion

def bootVersionThread : ManagerThread := .call bootPendingVersion fun _ ↦ activateThread

def bootThread : ManagerThread :=
  .call hasPendingCommit fun (pending : Bool) ↦ if pending then bootVersionThread else activateThread

def attemptLimitThread : ManagerThread :=
  .call shouldRollbackPending fun (exceeded : Bool) ↦
    if exceeded then rollbackThread "BOOT_ATTEMPT_LIMIT_EXCEEDED" else bootThread

def commitThread : ManagerThread :=
  .call hasPendingCommit fun (pending : Bool) ↦ if pending then attemptLimitThread else bootThread

/-- `reboot` -/
def rebootThread : ManagerThread :=
  .call pendingJournalRequiresRecovery fun (recovery : Bool) ↦
    if recovery then rollbackThread "INCOMPLETE_FLASH_JOURNAL" else commitThread

end RebootManager

namespace PostInstallValidator

def commitThread : ManagerThread := .call commitPending fun _ ↦ .done

def confirmThread (actual : String) : ManagerThread :=
  .call (confirmVersion actual) fun _ ↦ commitThread

def rollbackThread : ManagerThread :=
  .call (rollbackPendingVersion "POST_INSTALL_VALIDATION_FAILED") fun _ ↦
    .call (rollbackPending "POST_INSTALL_VALIDATION_FAILED") fun _ ↦
      .call getCurrentVersion fun _ ↦ .done

/-- The part of `validate` that touches the ECU. -/
def validateThread (passed : Bool) (actual : String) : ManagerThread :=
  .call hasPendingCommit fun (pending : Bool) ↦
    if pending then if passed then confirmThread actual else rollbackThread else .done

end PostInstallValidator

/-! ## Threads that nothing disturbs -/

section Alone

variable {α β γ : Type}

theorem store_bind_of_error {m : EcuM α} {f : α → EcuM β} {e : EcuStore} {err : PyError}
    (h : (m e).result = .error err) : (m >>= f).store e = m.store e := by
  simp [Persist.store, bind, h]

theorem store_bind_pure (m : EcuM α) (b : β) (e : EcuStore) :
    (m >>= fun _ ↦ (pure b : EcuM β)).store e = m.store e := by
  cases hresult : (m e).result with
  | error err => exact store_bind_of_error hresult
  | ok a => exact Persist.store_bind_of_ok hresult

/-- The thread leaves what the program leaves. -/
def Runs (thread : ManagerThread) (m : EcuM α) : Prop := ∀ e, thread.alone exec e = m.store e

theorem runs_done (a : α) : Runs .done (pure a : EcuM α) := fun _ ↦ rfl

theorem runs_call {c : ManagerCall} {next : c.Answer → ManagerThread} {f : c.Answer → EcuM β}
    (h : ∀ a, Runs (next a) (f a)) : Runs (.call c next) (c.run >>= f) := by
  intro e
  rw [Thread.alone, exec]
  cases hresult : (c.run e).result with
  | ok a =>
      rw [Persist.store_bind_of_ok hresult]
      exact h a _
  | error err => rw [store_bind_of_error hresult]

theorem runs_ite {b : Bool} {thread thread' : ManagerThread} {m n : EcuM α} (h : Runs thread m)
    (h' : Runs thread' n) : Runs (if b then thread else thread') (if b then m else n) := by
  cases b with
  | true => exact h
  | false => exact h'

theorem runs_bind_pure {thread : ManagerThread} {m : EcuM α} (h : Runs thread m) (b : β) :
    Runs thread (m >>= fun _ ↦ pure b) := by
  intro e
  rw [store_bind_pure, h]

theorem runs_showVersion (a : α) : Runs RebootManager.showVersion (pure a : EcuM α) := fun _ ↦ rfl

/-- A last call whose answer is the result of the program. -/
theorem runs_last {c : ManagerCall} {next : c.Answer → ManagerThread}
    (h : ∀ a, Runs (next a) (pure a : EcuM c.Answer)) : Runs (.call c next) c.run := by
  intro e
  have hcall := runs_call h e
  rw [hcall]
  cases hresult : (c.run e).result with
  | ok a =>
      rw [Persist.store_bind_of_ok hresult]
      rfl
  | error err => rw [store_bind_of_error hresult]

namespace RebootManager

theorem runs_rollbackThread (reason : String) : Runs (rollbackThread reason) (rollback reason) :=
  runs_call (c := .rollbackPendingVersion reason) fun _ ↦
    runs_last (c := .rollbackPending reason) fun a ↦ runs_showVersion a

theorem runs_activateThread : Runs activateThread SlotManager.activatePending :=
  runs_last (c := .activatePending) fun a ↦ runs_showVersion a

theorem runs_bootThread : Runs bootThread boot :=
  runs_call (c := .hasPendingCommit) fun _ ↦ runs_ite
    (runs_call (c := .bootPendingVersion) fun _ ↦ runs_activateThread) runs_activateThread

/-- Alone, the thread is the reboot. -/
theorem runs_rebootThread : Runs rebootThread reboot := by
  refine runs_call (c := .pendingJournalRequiresRecovery) fun _ ↦ runs_ite
    (runs_bind_pure (runs_rollbackThread _) none) ?_
  intro e
  rw [attemptLimitExceeded, Persist.bind_assoc]
  refine runs_call (c := .hasPendingCommit) (fun pending ↦ ?_) e
  cases pending with
  | false => exact runs_bootThread
  | true =>
      exact runs_call (c := .shouldRollbackPending) fun _ ↦ runs_ite
        (runs_bind_pure (runs_rollbackThread _) none) runs_bootThread

end RebootManager

namespace PostInstallValidator

theorem runs_validateThread (passed : Bool) (actual : String) :
    Runs (validateThread passed actual) (validateEcu passed actual) :=
  runs_call (c := .hasPendingCommit) fun _ ↦ runs_ite
    (runs_ite
      (runs_call (c := .confirmVersion actual) fun _ ↦
        runs_last (c := .commitPending) fun a ↦ runs_done a)
      (runs_call (c := .rollbackPendingVersion _) fun _ ↦
        runs_last (c := .rollbackPending _) fun a ↦ runs_showVersion a))
    (runs_done _)

end PostInstallValidator

end Alone

end VehicleOta.Ecu
