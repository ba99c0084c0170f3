import VehicleOta.Ecu.RebootManager
import VehicleOta.Firmware.ImageFormat

/-!
# Installing a firmware image

`ecus/base/installer.py`, with the phases of `FirmwareInstaller.install` as functions of
their own, and the two outcomes of the post-install validation of
`tcu/post_install_validator.py`.
-/

namespace VehicleOta.Ecu.FirmwareInstaller

open CrashLogic Firmware FlashMemoryEmulator

/-- The partition that the installer sets up for an image. -/
def flashFor (metadata : FirmwareImageMetadata) : FlashMemoryEmulator where
  baseAddress := metadata.flashAddress
  partitionSize := max defaultSectorSize
    ((metadata.payloadSize + defaultSectorSize - 1) / defaultSectorSize * defaultSectorSize)
  pageSize := if 1000000 < metadata.payloadSize then 65536 else defaultPageSize

/-- Erase the partition and program the payload page by page. -/
def programImage (metadata : FirmwareImageMetadata) (payload : Bytes)
    (firmwareFile : FirmwareFile) (targetVersion : String) : FlashM PUnit := do
  let flash := flashFor metadata
  flash.initializeFlash
  flash.updateJournal .prepared
    [("firmware_file", .text firmwareFile.name), ("target_version", .text targetVersion)]
  flash.eraseRegion metadata.flashAddress metadata.payloadSize
  Persist.forEach (rangeStep payload.length flash.pageSize) fun index ↦
    flash.program (metadata.flashAddress + index) (slice payload index (index + flash.pageSize))

/-- Move the image into the slot and record it in `slot_state.json`. -/
def markImagePending (ecuName : String) (metadata : FirmwareImageMetadata) (targetSlot : Slot)
    (firmwareFile : FirmwareFile) (targetVersion : String) : EcuM Slot := do
  let flash := flashFor metadata
  let pendingSlot ← SlotManager.stageFirmware firmwareFile
  inSlot targetSlot (flash.writeControlBlock
    [("ecu_name", .text ecuName), ("slot", .text pendingSlot.name),
      ("firmware_file", .text firmwareFile.name), ("target_version", .text targetVersion),
      ("flash_address", .number metadata.flashAddress),
      ("payload_size", .number metadata.payloadSize),
      ("payload_sha256", .text metadata.payloadSha256),
      ("image_format", .text metadata.imageFormat), ("build_number", .number metadata.buildNumber),
      ("bootable", .flag true), ("confirmed", .flag false), ("active", .flag false),
      ("rollback_reason", .text "")])
  SlotManager.markPending pendingSlot firmwareFile targetVersion
  return pendingSlot

/-- Read the payload back and close the journal. -/
def verifyImage (metadata : FirmwareImageMetadata) (payload : Bytes) (pendingSlot : Slot)
    (targetVersion : String) : FlashM PUnit := do
  let flash := flashFor metadata
  if !(← flash.verify metadata.flashAddress payload) then
    Persist.raise (.runtimeError "Flash readback verification failed")
  else if (← flash.sha256 metadata.flashAddress payload.length) ≠ metadata.payloadSha256 then
    Persist.raise (.runtimeError "Flash payload SHA256 verification failed")
  else do
    recordPayloadMetadata metadata.flashAddress payload
    flash.updateJournal .verified
      [("verify_address", .number metadata.flashAddress),
        ("verify_size", .number metadata.payloadSize),
        ("payload_sha256", .text metadata.payloadSha256)]
    flash.updateJournal .pendingActivation
      [("pending_slot", .text pendingSlot.name),
        ("target_version", .text targetVersion)]

/-- From the accepted image to the closed journal. -/
def stageImage (ecuName : String) (metadata : FirmwareImageMetadata) (payload : Bytes)
    (firmwareFile : FirmwareFile) (targetVersion : String) : EcuM PUnit := do
  let targetSlot ← SlotManager.inactiveSlot
  inSlot targetSlot (programImage metadata payload firmwareFile targetVersion)
  let pendingSlot ← markImagePending ecuName metadata targetSlot firmwareFile targetVersion
  let _ ← VersionManager.setPendingVersion targetVersion (some pendingSlot)
  inSlot targetSlot (verifyImage metadata payload pendingSlot targetVersion)

/-- Remove what an earlier version of the installer left. -/
def removeLegacyInstall (firmwareFile : FirmwareFile) : EcuM PUnit := do
  match ← Persist.reads fun e ↦ e.installed firmwareFile with
  | some _ => Persist.write .installed fun e ↦
      { e with installed := Function.update e.installed firmwareFile none }
  | none => pure ⟨⟩

/-- `download_path.read_bytes()` -/
def readDownload (firmwareFile : FirmwareFile) : EcuM Bytes := do
  match ← Persist.reads fun e ↦ e.downloads firmwareFile with
  | none => Persist.raise (.fileNotFoundError s!"Downloaded firmware not found: {firmwareFile.name}")
  | some image => return image

def install (ecuName : String) (firmwareFile : FirmwareFile)
    (targetVersion : String := "2.0.0") : EcuM Bool := do
  removeLegacyInstall firmwareFile
  let image ← readDownload firmwareFile
  let (metadata, payload) ← Persist.ofExcept (extractFirmwarePayload image)
  stageImage ecuName metadata payload firmwareFile targetVersion
  let _ ← RebootManager.reboot
  return true

end VehicleOta.Ecu.FirmwareInstaller

namespace VehicleOta.Ecu.PostInstallValidator

open CrashLogic

/-- The ECU runs the target version: `confirm_version` then `commit_pending`. -/
def confirm (actual : String) : EcuM PUnit := do
  let _ ← VersionManager.confirmVersion actual
  SlotManager.commitPending

/-- The ECU runs another version: `rollback_pending_version` then `rollback_pending`. -/
def rollback : EcuM PUnit := do
  let _ ← VersionManager.rollbackPendingVersion "POST_INSTALL_VALIDATION_FAILED"
  SlotManager.rollbackPending "POST_INSTALL_VALIDATION_FAILED"

/-- The part of `validate` that touches the ECU: nothing unless a commit is pending. -/
def validateEcu (passed : Bool) (actual : String) : EcuM PUnit := do
  if ← VersionManager.hasPendingCommit then
    if passed then confirm actual else rollback
  else return ⟨⟩

end VehicleOta.Ecu.PostInstallValidator
