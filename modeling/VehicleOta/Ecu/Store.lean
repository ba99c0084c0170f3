import Mathlib.Logic.Function.Basic
import VehicleOta.Ecu.FlashMemory

/-!
# The persistent store of one ECU

`version.json`, `slot_state.json`, the directories of the slots `A` and `B`, and the
download and install directories under `ecus/<name>`.  The empty string that marks "no
pending slot" is `none`.
-/

namespace VehicleOta.Ecu

open CrashLogic

inductive Slot where
  | A
  | B
  deriving DecidableEq, Repr

/-- The slot that is not the given one. -/
def Slot.other : Slot → Slot
  | .A => .B
  | .B => .A

def Slot.name : Slot → String
  | .A => "A"
  | .B => "B"

@[simp] theorem Slot.other_ne (s : Slot) : s.other ≠ s := by
  cases s <;> decide

@[simp] theorem Slot.ne_other (s : Slot) : s ≠ s.other := s.other_ne.symm

theorem Slot.eq_other_of_ne {s t : Slot} (h : s ≠ t) : s = t.other := by
  cases s <;> cases t <;> first | rfl | exact absurd rfl h

inductive BootOutcome where
  | confirmed
  | pendingReboot
  | pendingCommit
  | rolledBack
  deriving DecidableEq, Repr

/-- `version.json` with the defaults of `VersionManager._default_state`. -/
structure VersionState where
  currentVersion : String := "1.0.0"
  confirmedVersion : String := "1.0.0"
  pendingVersion : String := ""
  activeSlot : Slot := .A
  confirmedSlot : Slot := .A
  pendingSlot : Option Slot := none
  pendingCommit : Bool := false
  bootAttempts : ℕ := 0
  lastBootOutcome : BootOutcome := .confirmed
  rollbackReason : String := ""
  deriving DecidableEq, Repr

inductive Transition where
  | initialized
  | staged
  | bootedPending
  | confirmed
  | rolledBack
  deriving DecidableEq, Repr

/-- `slot_state.json` with the defaults of `SlotManager._default_state`. -/
structure SlotState where
  activeSlot : Slot := .A
  confirmedSlot : Slot := .A
  previousSlot : Slot := .A
  pendingSlot : Option Slot := none
  pendingFile : String := ""
  pendingVersion : String := ""
  bootAttempts : ℕ := 0
  maxBootAttempts : ℕ := 1
  rollbackReason : String := ""
  lastTransition : Transition := .initialized
  deriving DecidableEq, Repr

structure EcuStore where
  version : Option VersionState := none
  slotState : Option SlotState := none
  slots : Slot → SlotDir := fun _ ↦ {}
  downloads : FirmwareFile → Option Bytes := fun _ ↦ none
  installed : FirmwareFile → Option Bytes := fun _ ↦ none

inductive EcuFile where
  | version
  | slotState
  | slot (slot : Slot) (file : SlotFile)
  | download
  | installed
  deriving DecidableEq, Repr

/-- A program on the store of one ECU. -/
abbrev EcuM := Persist EcuFile EcuStore PyError

namespace EcuStore

/-- What `VersionManager._load` returns. -/
def versions (e : EcuStore) : VersionState := e.version.getD {}

/-- What `SlotManager._load_state` returns. -/
def slotInfo (e : EcuStore) : SlotState := e.slotState.getD {}

def setSlot (e : EcuStore) (s : Slot) (d : SlotDir) : EcuStore :=
  { e with slots := Function.update e.slots s d }

def setVersions (e : EcuStore) (v : VersionState) : EcuStore := { e with version := some v }

def setSlotInfo (e : EcuStore) (v : SlotState) : EcuStore := { e with slotState := some v }

variable (e : EcuStore) (s t : Slot) (d : SlotDir) (v : VersionState) (w : SlotState)

@[simp] theorem versions_setSlot : (e.setSlot s d).versions = e.versions := rfl
@[simp] theorem versions_setVersions : (e.setVersions v).versions = v := rfl
@[simp] theorem versions_setSlotInfo : (e.setSlotInfo w).versions = e.versions := rfl
@[simp] theorem slotInfo_setSlot : (e.setSlot s d).slotInfo = e.slotInfo := rfl
@[simp] theorem slotInfo_setVersions : (e.setVersions v).slotInfo = e.slotInfo := rfl
@[simp] theorem slotInfo_setSlotInfo : (e.setSlotInfo w).slotInfo = w := rfl
@[simp] theorem slots_setVersions : (e.setVersions v).slots = e.slots := rfl
@[simp] theorem slots_setSlotInfo : (e.setSlotInfo w).slots = e.slots := rfl
@[simp] theorem downloads_setSlot : (e.setSlot s d).downloads = e.downloads := rfl
@[simp] theorem downloads_setVersions : (e.setVersions v).downloads = e.downloads := rfl
@[simp] theorem downloads_setSlotInfo : (e.setSlotInfo w).downloads = e.downloads := rfl

@[simp] theorem slots_setSlot_self : (e.setSlot s d).slots s = d := by
  simp [setSlot]

theorem slots_setSlot_of_ne {s t : Slot} (h : t ≠ s) : (e.setSlot s d).slots t = e.slots t := by
  simp [setSlot, h]

@[simp] theorem setSlot_self : e.setSlot s (e.slots s) = e := by
  simp [setSlot]

@[simp] theorem setSlot_setSlot (d' : SlotDir) :
    (e.setSlot s d).setSlot s d' = e.setSlot s d' := by
  simp [setSlot]

end EcuStore

/-- Run a flash program in the directory of a slot. -/
def inSlot {α : Type} (s : Slot) (m : FlashM α) : EcuM α :=
  Persist.zoom (EcuFile.slot s) (fun e ↦ e.slots s) (fun d e ↦ e.setSlot s d) m

theorem wp_inSlot {α : Type} {s : Slot} {m : FlashM α} {e : EcuStore}
    {C : EcuFile → EcuStore → Prop} {Q : Except PyError α → EcuStore → Prop} :
    (inSlot s m).wp C Q e ↔
      m.wp (fun f d ↦ C (.slot s f) (e.setSlot s d)) (fun r d ↦ Q r (e.setSlot s d)) (e.slots s) :=
  Persist.wp_zoom (e.setSlot_self s)

end VehicleOta.Ecu
