import VehicleOta.Common.Version
import VehicleOta.Ecu.Store

/-!
# The version record

`ecus/base/version_manager.py`.  `VersionManager._load` does not create the file.
-/

namespace VehicleOta.Ecu

open CrashLogic

/-! ## The new records -/

namespace VersionState

def pend (data : VersionState) (normalized : String) (pendingSlot : Option Slot) : VersionState :=
  let data := { data with pendingVersion := normalized }
  let data := if pendingSlot.isSome then
    { data with pendingSlot := pendingSlot, pendingCommit := true } else data
  { data with
    bootAttempts := 0
    lastBootOutcome := .pendingReboot
    rollbackReason := "" }

def confirm (data : VersionState) (normalized : String) : VersionState :=
  let active := data.pendingSlot.getD data.activeSlot
  { data with
    currentVersion := normalized
    confirmedVersion := normalized
    pendingVersion := ""
    activeSlot := active
    confirmedSlot := active
    pendingSlot := none
    pendingCommit := false
    bootAttempts := 0
    lastBootOutcome := .confirmed
    rollbackReason := "" }

def bootPending (data : VersionState) : VersionState :=
  { data with
    currentVersion := data.pendingVersion
    activeSlot := data.pendingSlot.getD data.activeSlot
    pendingCommit := true
    bootAttempts := data.bootAttempts + 1
    lastBootOutcome := .pendingCommit }

def rollbackPending (data : VersionState) (reason : String) : VersionState :=
  { data with
    currentVersion := data.confirmedVersion
    pendingVersion := ""
    pendingSlot := none
    activeSlot := data.confirmedSlot
    pendingCommit := false
    bootAttempts := 0
    lastBootOutcome := .rolledBack
    rollbackReason := reason }

@[simp] theorem pendingCommit_pend (data : VersionState) (normalized : String) (slot : Slot) :
    (data.pend normalized (some slot)).pendingCommit = true := rfl

@[simp] theorem pendingCommit_bootPending (data : VersionState) :
    data.bootPending.pendingCommit = true := rfl

end VersionState

/-! ## The methods -/

namespace VersionManager

def load : EcuM VersionState := Persist.reads EcuStore.versions

def save (data : VersionState) : EcuM PUnit := Persist.write .version fun e ↦ e.setVersions data

def getCurrentVersion : EcuM String := do
  return (← load).currentVersion

def getConfirmedVersion : EcuM String := do
  return (← load).confirmedVersion

def setPendingVersion (version : String) (pendingSlot : Option Slot) : EcuM Bool := do
  let normalized ← Persist.ofExcept (normalizeVersion version)
  let data ← load
  save (data.pend normalized pendingSlot)
  return true

def confirmVersion (version : String) : EcuM Bool := do
  let normalized ← Persist.ofExcept (normalizeVersion version)
  let data ← load
  save (data.confirm normalized)
  return true

def bootPendingVersion : EcuM Bool := do
  let data ← load
  if data.pendingVersion = "" then return false
  else
    save data.bootPending
    return true

def rollbackPendingVersion (reason : String) : EcuM Bool := do
  let data ← load
  save (data.rollbackPending reason)
  return true

def hasPendingCommit : EcuM Bool := do
  return (← load).pendingCommit

end VersionManager

end VehicleOta.Ecu
