import VehicleOta.Ecu.Operations
import VehicleOta.Ecu.InstallSpec
import VehicleOta.Firmware.ImageHeader

/-!
# Damaged images at the installer

The installer computes the digest that it compares the flash with from the payload it
programs.  Only the frame of the header can stop it before the slot record changes.
-/

namespace VehicleOta.Ecu.FirmwareInstaller

open CrashLogic Firmware Hash

variable {e : EcuStore} {metadata : FirmwareImageMetadata} {payload image : Bytes}
  {firmwareFile : FirmwareFile} {ecuName targetVersion : String}

/-- The installation raises, and no write of it marks the image pending. -/
def StopsBeforePending (ecuName : String) (firmwareFile : FirmwareFile) (targetVersion : String)
    (e : EcuStore) : Prop :=
  (∃ err, (install ecuName firmwareFile targetVersion e).result = .error err) ∧
    Transition.staged ∉ (install ecuName firmwareFile targetVersion).observe seeTransition e

theorem stageImage_staged (ecuName targetVersion : String) (he : e.Sound)
    (hdesc : Describes metadata payload) (hdownload : e.downloads firmwareFile = some image) :
    Transition.staged ∈
      (stageImage ecuName metadata payload firmwareFile targetVersion).observe seeTransition e := by
  rw [stageImage]
  refine Persist.mem_observe_bind_right (inactiveSlot_performs.observes seeTransition
    (D := fun _ _ ↦ True) (fun _ _ ↦ False.elim) (by simp) (by simp)).1 ?_
  rintro _ _ ⟨rfl, rfl⟩
  refine Persist.mem_observe_bind_right (programTarget_returns he hdesc) ?_
  rintro _ u ⟨hu, hdown⟩
  apply Persist.mem_observe_bind_left
  rw [(markImagePending_observes he (hdown ▸ hdownload) hu).2]
  exact List.mem_singleton_self _

/-- An image that the parser accepts is marked pending. -/
theorem install_staged (ecuName targetVersion : String) (he : e.Sound)
    (haccepts : Accepts e firmwareFile metadata payload) :
    Transition.staged ∈
      (install ecuName firmwareFile targetVersion).observe seeTransition e := by
  obtain ⟨image, hdownload, hextract⟩ := haccepts
  rw [install]
  refine Persist.mem_observe_bind_right (removeLegacyInstall_returns firmwareFile) ?_
  intro _ u hu
  have hdown : u.downloads firmwareFile = some image := by
    obtain ⟨installed, rfl⟩ := hu
    exact hdownload
  refine Persist.mem_observe_bind_right (readDownload_returns hdown (C := fun _ _ ↦ False)) ?_
  rintro _ _ ⟨rfl, rfl⟩
  rw [hextract]
  refine Persist.mem_observe_bind_right (C := fun _ _ ↦ False)
    (P := fun p t ↦ p = (metadata, payload) ∧ t = _)
    ((Persist.returns_ofExcept _).mpr ⟨_, rfl, rfl, rfl⟩) ?_
  rintro _ _ ⟨rfl, rfl⟩
  exact Persist.mem_observe_bind_left
    (stageImage_staged ecuName targetVersion (hu.quiet.sound he) (describes_of_extract hextract) hdown)

theorem install_refused (ecuName targetVersion : String)
    (hrefused : ∀ metadata payload, ¬ Accepts e firmwareFile metadata payload) :
    StopsBeforePending ecuName firmwareFile targetVersion e := by
  have hwp : (install ecuName firmwareFile targetVersion).wp (fun i _ ↦ i = .installed)
      (fun r _ ↦ ∃ err, r = .error err) e := by
    apply install_wp
    · exact fun _ _ ↦ rfl
    · exact fun err _ _ _ ↦ ⟨err, rfl⟩
    · exact fun metadata payload _ haccepts ↦ absurd haccepts (hrefused metadata payload)
  refine ⟨hwp.2, ?_⟩
  rw [Persist.observe_eq_nil hwp (by rintro _ _ rfl; rfl)]
  exact List.not_mem_nil

/-- The digests of the header take no part in the decision. -/
theorem stopsBeforePending_iff (ecuName targetVersion : String) (he : e.Sound)
    (hdownload : e.downloads firmwareFile = some image) :
    StopsBeforePending ecuName firmwareFile targetVersion e ↔ ¬ HeaderAccepted image := by
  constructor
  · rintro ⟨-, hunmarked⟩ haccepted
    obtain ⟨metadata, hextract⟩ := extractFirmwarePayload_of_accepted haccepted
    exact hunmarked (install_staged ecuName targetVersion he ⟨image, hdownload, hextract⟩)
  · intro hheader
    obtain ⟨err, herr⟩ := extractFirmwarePayload_of_not_accepted hheader
    apply install_refused
    rintro metadata payload ⟨image', hdownload', hextract⟩
    rw [hdownload] at hdownload'
    rw [← Option.some.inj hdownload', herr] at hextract
    cases hextract

/-- The parser accepts an image that contradicts its header exactly where the frame is right.  A
built image with another payload stops the installation exactly where the payload is cut short. -/
theorem image_integrity_iff (image : Bytes) (spec : FirmwareImageSpec) (built payload : Bytes)
    (ecuName : String) (firmwareFile : FirmwareFile) (targetVersion : String) (e : EcuStore) :
    ((∀ metadata, parseFirmwareImage image = .ok metadata → HeaderMatches image) ↔
      (HeaderAccepted image → HeaderMatches image)) ∧
    (buildFirmwareImage spec = .ok built → e.Sound →
      e.downloads firmwareFile = some (built.take headerSize ++ payload) →
        (StopsBeforePending ecuName firmwareFile targetVersion e ↔
          payload.length < spec.payloadData.length)) := by
  constructor
  · constructor
    · intro h haccepted
      obtain ⟨metadata, hparse⟩ := parseFirmwareImage_ok_iff.mpr haccepted
      exact h metadata hparse
    · intro h metadata hparse
      exact h (parseFirmwareImage_ok_iff.mp ⟨metadata, hparse⟩)
  · intro hbuild he hdownload
    obtain ⟨rfl, hfits⟩ := buildFirmwareImage_ok hbuild
    rw [← length_packHeader spec, List.take_left] at hdownload
    rw [stopsBeforePending_iff ecuName targetVersion he hdownload, headerAccepted_built hfits,
      not_le]

/-! ## One changed byte -/

def builtSpec : FirmwareImageSpec where
  ecuName := "BCM"
  ecuId := 0x202
  partNumber := "BCM-001"
  currentVersion := "1.0.0"
  targetVersion := "2.0.0"
  buildDate := "20260101"
  buildNumber := 1
  flashAddress := 0
  payloadSize := 1
  payloadData := [0]

/-- The download is the built image with its only byte changed. -/
def tamperedEcu : EcuStore :=
  { downloads := fun _ ↦ some ((packHeader builtSpec ++ builtSpec.payloadData).take headerSize ++ [1]) }

theorem buildFirmwareImage_builtSpec :
    buildFirmwareImage builtSpec = .ok (packHeader builtSpec ++ builtSpec.payloadData) := by
  rw [buildFirmwareImage, if_neg (by decide), if_neg (by decide)]

theorem sound_tamperedEcu : tamperedEcu.Sound := fresh_deliveredEcu.sound

theorem tampered_image_accepted :
    (∃ metadata, parseFirmwareImage (packHeader builtSpec ++ [1]) = .ok metadata) ∧
      sha256 [1] ≠ sha256 builtSpec.payloadData ∧ ¬ HeaderMatches (packHeader builtSpec ++ [1]) ∧
      Transition.staged ∈
        (install "bcm" bcmFirmware "2.0.0").observe seeTransition tamperedEcu := by
  have hfits : headerSize + builtSpec.payloadData.length < 2 ^ 32 := by decide
  have hsha : sha256 [1] ≠ sha256 builtSpec.payloadData := by decide +kernel
  have haccepted : HeaderAccepted (packHeader builtSpec ++ [1]) :=
    (headerAccepted_built hfits).mpr (by decide)
  obtain ⟨metadata, hextract⟩ := extractFirmwarePayload_of_accepted haccepted
  refine ⟨parseFirmwareImage_ok_iff.mpr haccepted, hsha, fun h ↦ ?_, ?_⟩
  · exact hsha ((headerMatches_built_iff hfits).mp h).2.symm
  · refine install_staged "bcm" "2.0.0" sound_tamperedEcu ⟨_, ?_, hextract⟩
    rw [tamperedEcu, ← length_packHeader builtSpec, List.take_left]

theorem tampered_image_not_stopped :
    ¬ StopsBeforePending "bcm" bcmFirmware "2.0.0" tamperedEcu := by
  rw [(image_integrity_iff [] builtSpec _ [1] "bcm" bcmFirmware "2.0.0" tamperedEcu).2
    buildFirmwareImage_builtSpec sound_tamperedEcu rfl]
  decide

end VehicleOta.Ecu.FirmwareInstaller
