import VehicleOta.Ecu.InstallSpec

/-!
# The operations of an ECU

What can happen to the persistent store of an ECU between two looks at it, and what each
operation does to a store in terms of both records.
-/

namespace VehicleOta.Ecu

open CrashLogic Firmware

inductive Operation where
  /-- `FirmwareReceiver.save` -/
  | download (firmwareFile : FirmwareFile) (content : Bytes)
  | install (ecuName : String) (firmwareFile : FirmwareFile) (targetVersion : String)
  | reboot
  | confirm (actual : String)
  | rollback

namespace Operation

def run : Operation → EcuM PUnit
  | download firmwareFile content =>
      Persist.write .download fun e ↦
        { e with downloads := Function.update e.downloads firmwareFile (some content) }
  | install ecuName firmwareFile targetVersion => do
      let _ ← FirmwareInstaller.install ecuName firmwareFile targetVersion
      return ⟨⟩
  | reboot => do
      let _ ← RebootManager.reboot
      return ⟨⟩
  | confirm actual => PostInstallValidator.confirm actual
  | rollback => PostInstallValidator.rollback

/-- The validator confirms and rolls back only while a commit is pending. -/
def Guarded (e : EcuStore) : Operation → Prop
  | confirm _ | rollback => e.versions.pendingCommit = true
  | _ => True

end Operation

theorem download_quiet (e : EcuStore) (firmwareFile : FirmwareFile) (content : Bytes) :
    e.Quiet ((Operation.download firmwareFile content).run.store e) :=
  ⟨rfl, rfl, fun _ ↦ .refl _⟩

/-- An ECU as delivered: both records at their defaults with the stored limit `m`, or not
written yet, and empty slots. -/
structure Fresh (m : ℕ) (e : EcuStore) : Prop where
  version : e.version = none ∨ e.version = some {}
  slotState : e.slotState = some { maxBootAttempts := m } ∨ e.slotState = none ∧ m = 1
  slots : ∀ s, e.slots s = {}

namespace Fresh

variable {m : ℕ} {e : EcuStore}

theorem versions (h : Fresh m e) : e.versions = {} := by
  rcases h.version with hv | hv <;> simp [EcuStore.versions, hv]

theorem slotInfo (h : Fresh m e) : e.slotInfo = { maxBootAttempts := m } := by
  rcases h.slotState with hs | ⟨hs, rfl⟩ <;> simp [EcuStore.slotInfo, hs]

theorem sound (h : Fresh m e) : e.Sound := by
  intro s
  rw [h.slots s]
  exact ⟨by simp, by simp⟩

end Fresh

theorem PostInstallValidator.validateEcu_eq (e : EcuStore) (passed : Bool) (actual : String) :
    PostInstallValidator.validateEcu passed actual e =
      if e.versions.pendingCommit then
        (if passed then Operation.run (.confirm actual) else Operation.run .rollback) e
      else ⟨[], .ok ⟨⟩⟩ := by
  rw [PostInstallValidator.validateEcu]
  have hread : ∀ f : Bool → EcuM PUnit, (VersionManager.hasPendingCommit >>= f) e =
      f e.versions.pendingCommit e := fun _ ↦ rfl
  rw [hread]
  cases e.versions.pendingCommit <;> cases passed <;> rfl

/-! ## A concrete ECU -/

def bcmFirmware : FirmwareFile := ⟨"bcm_v2.bin", by decide⟩

/-- A delivered ECU that has downloaded an image. -/
def deliveredEcu : EcuStore :=
  { slotState := some {}, downloads := fun _ ↦ some (Firmware.bareImage 0) }

theorem fresh_deliveredEcu : Fresh 1 deliveredEcu := ⟨Or.inl rfl, Or.inl rfl, fun _ ↦ rfl⟩

theorem accepts_bareImage {e : EcuStore} {b : UInt8}
    (h : e.downloads bcmFirmware = some (Firmware.bareImage b)) :
    ∃ metadata, FirmwareInstaller.Accepts e bcmFirmware metadata [b] := by
  obtain ⟨metadata, hextract⟩ := Firmware.extract_bareImage b
  exact ⟨metadata, _, h, hextract⟩

end VehicleOta.Ecu
