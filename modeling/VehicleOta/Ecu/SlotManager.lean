import VehicleOta.Ecu.Store

/-!
# The slot record

`ecus/base/slot_manager.py`.  `SlotManager._load_state` writes the default state when the
file is missing, so that reading is a write there.
-/

namespace VehicleOta.Ecu

open CrashLogic FlashMemoryEmulator

/-! ## The new records -/

namespace SlotState

def markPending (state : SlotState) (slot : Slot) (firmwareFile : FirmwareFile) (version : String) :
    SlotState :=
  { state with
    pendingSlot := some slot
    pendingFile := firmwareFile.name
    pendingVersion := version
    bootAttempts := 0
    rollbackReason := ""
    lastTransition := .staged }

def activatePending (state : SlotState) (pending : Slot) : SlotState :=
  { state with
    previousSlot := state.activeSlot
    activeSlot := pending
    bootAttempts := state.bootAttempts + 1
    lastTransition := .bootedPending }

def commitPending (state : SlotState) : SlotState :=
  { state with
    confirmedSlot := state.activeSlot
    pendingSlot := none
    pendingFile := ""
    pendingVersion := ""
    bootAttempts := 0
    rollbackReason := ""
    lastTransition := .confirmed }

def rollbackPending (state : SlotState) (reason : String) : SlotState :=
  { state with
    previousSlot := state.activeSlot
    activeSlot := state.confirmedSlot
    pendingSlot := none
    pendingFile := ""
    pendingVersion := ""
    bootAttempts := 0
    rollbackReason := reason
    lastTransition := .rolledBack }

end SlotState

/-! ## The methods -/

namespace SlotManager

def saveState (state : SlotState) : EcuM PUnit :=
  Persist.write .slotState fun e ↦ e.setSlotInfo state

def loadState : EcuM SlotState := do
  match ← Persist.reads EcuStore.slotState with
  | some state => return state
  | none =>
      saveState {}
      return {}

def activeSlot : EcuM Slot := do
  return (← loadState).activeSlot

def inactiveSlot : EcuM Slot := do
  return if (← activeSlot) = .A then .B else .A

/-- `destination.unlink()` where the file exists. -/
def unlinkImage (slot : Slot) (firmwareFile : FirmwareFile) : EcuM PUnit := do
  match ← Persist.reads fun e ↦ (e.slots slot).images firmwareFile with
  | some _ => inSlot slot (Persist.write .image fun d ↦ d.withImage firmwareFile none)
  | none => return ⟨⟩

/-- `shutil.move` of the download into a slot directory. -/
def moveDownload (slot : Slot) (firmwareFile : FirmwareFile) : EcuM PUnit := do
  match ← Persist.reads fun e ↦ e.downloads firmwareFile with
  | none => Persist.raise (.fileNotFoundError firmwareFile.name)
  | some image =>
      Persist.write .download fun e ↦
        { e.setSlot slot ((e.slots slot).withImage firmwareFile (some image)) with
          downloads := Function.update e.downloads firmwareFile none }

def stageFirmware (firmwareFile : FirmwareFile) : EcuM Slot := do
  let slot ← inactiveSlot
  unlinkImage slot firmwareFile
  moveDownload slot firmwareFile
  return slot

/-- The emulator that the layout file of a slot describes, if there is one. -/
def flashOf (slot : Slot) : EcuM (Option FlashMemoryEmulator) := do
  match ← Persist.reads fun e ↦ (e.slots slot).layout with
  | none => return none
  | some layout =>
      match layout.geometry with
      | some geometry => return some ⟨geometry⟩
      | none => Persist.raise (.keyError "base_address")

def updateControlBlock (slot : Slot) (updates : List (String × Field)) : EcuM PUnit := do
  match ← flashOf slot with
  | none => return ⟨⟩
  | some flash => inSlot slot (flash.writeControlBlock updates)

def updateJournal (slot : Slot) (state : JournalState) (updates : List (String × Field)) :
    EcuM PUnit := do
  match ← flashOf slot with
  | none => return ⟨⟩
  | some flash => inSlot slot (flash.updateJournal state updates)

def setActiveSlotControlBlocks (activeSlot : Slot) (confirmed : Bool) : EcuM PUnit :=
  Persist.forEach [Slot.A, Slot.B] fun slot ↦
    updateControlBlock slot
      ([("active", .flag (slot = activeSlot)),
        ("confirmed", .flag (if slot = activeSlot then confirmed else false))] ++
        if slot = activeSlot then [("bootable", .flag true)] else [])

def markPending (slot : Slot) (firmwareFile : FirmwareFile) (version : String) : EcuM PUnit := do
  let state ← loadState
  saveState (state.markPending slot firmwareFile version)
  updateControlBlock slot
    [("slot", .text slot.name), ("firmware_file", .text firmwareFile.name),
      ("target_version", .text version), ("bootable", .flag true), ("confirmed", .flag false),
      ("active", .flag false), ("rollback_reason", .text "")]

def activatePending : EcuM (Option Slot) := do
  let state ← loadState
  match state.pendingSlot with
  | none => return none
  | some pending =>
      saveState (state.activatePending pending)
      updateJournal pending .bootedPending [("boot_attempts", .number (state.bootAttempts + 1))]
      setActiveSlotControlBlocks pending false
      return some pending

def commitPending : EcuM PUnit := do
  let state ← loadState
  saveState state.commitPending
  updateJournal state.activeSlot .confirmed [("confirmed_slot", .text state.activeSlot.name)]
  setActiveSlotControlBlocks state.activeSlot true

def rollbackPending (reason : String) : EcuM PUnit := do
  let state ← loadState
  saveState (state.rollbackPending reason)
  updateJournal state.activeSlot .rolledBack
    [("rollback_reason", .text reason), ("confirmed_slot", .text state.confirmedSlot.name)]
  updateControlBlock state.activeSlot
    [("bootable", .flag false), ("active", .flag false), ("confirmed", .flag false),
      ("rollback_reason", .text reason)]
  setActiveSlotControlBlocks state.confirmedSlot true

def shouldRollbackPending : EcuM Bool := do
  let state ← loadState
  return state.pendingSlot.isSome && state.maxBootAttempts ≤ state.bootAttempts

def pendingJournalRequiresRecovery : EcuM Bool := do
  let state ← loadState
  match state.pendingSlot with
  | none => return false
  | some pending => Persist.reads fun e ↦ (e.slots pending).incomplete

end SlotManager

end VehicleOta.Ecu
