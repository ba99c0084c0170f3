import VehicleOta.Uds.FlashSession
import VehicleOta.Uds.VersionReadback

/-!
# From the flashing tester to the slots of the ECU

The session of the tester, the install that its reset starts, and the version that the ECU reports
behind it.
-/

namespace VehicleOta.Uds

open ProgrammingServer TraceLogic CrashLogic Ecu FirmwareInstaller Firmware

/-! ## The install -/

/-- The image that was flashed is on trial in the slot that was not active. -/
structure OnTrial (e : EcuStore) (metadata : FirmwareImageMetadata) (payload : Bytes)
    (normalized : String) (t : EcuStore) : Prop where
  currentVersion : t.versions.currentVersion = normalized
  confirmedVersion : t.versions.confirmedVersion = e.versions.confirmedVersion
  activeSlot : t.slotInfo.activeSlot = e.slotInfo.activeSlot.other
  confirmedSlot : t.slotInfo.confirmedSlot = e.slotInfo.confirmedSlot
  pendingCommit : t.versions.pendingCommit = true
  image : ImageIn metadata payload (t.slots t.slotInfo.activeSlot)
  others : ∀ s, s ≠ t.slotInfo.activeSlot → (t.slots s).memory = (e.slots s).memory

section Install

variable {e t u : EcuStore} {metadata : FirmwareImageMetadata} {payload : Bytes}
  {firmwareFile : FirmwareFile} {targetVersion normalized : String}

theorem onTrial_of_staged (hlegacy : FirmwareInstaller.Legacy e u)
    (hstaged : Staged u metadata payload firmwareFile targetVersion normalized t)
    {v : EcuStore} (hquiet : (t.booted u.target).Quiet v) :
    OnTrial e metadata payload normalized v := by
  have htarget : u.target = e.slotInfo.activeSlot.other := by
    rw [EcuStore.target, hlegacy.quiet.slotInfo]
  have hversions : v.versions = t.versions.bootPending := hquiet.versions
  have hinfo : v.slotInfo = t.slotInfo.activatePending u.target := hquiet.slotInfo
  have hactive : v.slotInfo.activeSlot = u.target := by rw [hinfo]; rfl
  refine ⟨?_, ?_, hactive.trans htarget, ?_, ?_, ?_, ?_⟩
  · rw [hversions, hstaged.versions]
    exact pendingVersion_pend _ _ _
  · rw [hversions, hstaged.versions, ← hlegacy.quiet.versions]
    rfl
  · rw [hinfo, hstaged.slotInfo, ← hlegacy.quiet.slotInfo]
    rfl
  · rw [hversions]
    rfl
  · have hslot := hquiet.slots u.target
    have himage : ImageIn metadata payload (t.slots u.target) := hstaged.target.1
    rw [hactive]
    exact ⟨hslot.memory.trans himage.memory, by rw [hslot.layout]; exact himage.layout⟩
  · intro s hs
    rw [hactive] at hs
    rw [(hquiet.slots s).memory]
    change (t.slots s).memory = _
    rw [hstaged.others s hs]
    exact (hlegacy.quiet.slots s).memory

end Install

/-! ## Reading the version behind the reset -/

namespace Bench

variable {σ : Type} [ProgrammingServer σ] {x : Bench σ} {serving : σ → Prop}
  {erase : Bytes → σ → σ} {calls : Action → σ → Prop} {reported : SemVer} {targetVersion : String}

end Bench

/-! ## Both servers -/

/-- What every request of the session to the BCM finds around it. -/
def bcmSurroundings : Request where
  payload := []
  original := .ok (bareImage 0)
  currentVersion := .ok "2.0.0"

end VehicleOta.Uds
