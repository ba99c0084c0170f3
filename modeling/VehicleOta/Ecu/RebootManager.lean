import VehicleOta.Ecu.SlotManager
import VehicleOta.Ecu.VersionManager

/-!
# Reboot

`ecus/base/reboot_manager.py` with both managers present, as the installer builds it.
-/

namespace VehicleOta.Ecu.RebootManager

open CrashLogic

/-- The two records are rolled back one after the other. -/
def rollback (reason : String) : EcuM PUnit := do
  let _ ← VersionManager.rollbackPendingVersion reason
  SlotManager.rollbackPending reason

/-- The condition of the second branch of `reboot`. -/
def attemptLimitExceeded : EcuM Bool := do
  if ← VersionManager.hasPendingCommit then SlotManager.shouldRollbackPending
  else return false

/-- The end of `reboot`, where nothing is rolled back. -/
def boot : EcuM (Option Slot) := do
  if ← VersionManager.hasPendingCommit then
    let _ ← VersionManager.bootPendingVersion
    SlotManager.activatePending
  else SlotManager.activatePending

/-- `RebootManager.reboot`.  The value is the slot that `activate_pending` booted, and
`none` where the boot was refused or nothing was pending. -/
def reboot : EcuM (Option Slot) := do
  if ← SlotManager.pendingJournalRequiresRecovery then
    rollback "INCOMPLETE_FLASH_JOURNAL"
    return none
  else if ← attemptLimitExceeded then
    rollback "BOOT_ATTEMPT_LIMIT_EXCEEDED"
    return none
  else boot

end VehicleOta.Ecu.RebootManager
