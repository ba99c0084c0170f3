import VehicleOta.Ecu.LifeCycle
import VehicleOta.Ecu.Moves

/-!
# The confirmed image

An installation programs the slot that is not active, and a rollback returns to the slot
that is confirmed.  The confirmed image survives where the two are the same slot.
-/

namespace VehicleOta.Ecu

open CrashLogic FirmwareInstaller

/-! ## What leaves the flash and the confirmed slots alone -/

structure Calm (e t : EcuStore) : Prop where
  sound : e.Sound → t.Sound
  memory : ∀ s, (t.slots s).memory = (e.slots s).memory
  confirmedS : t.slotInfo.confirmedSlot = e.slotInfo.confirmedSlot
  confirmedV : t.versions.confirmedSlot = e.versions.confirmedSlot

namespace Calm

variable {e t u : EcuStore}

theorem refl (e : EcuStore) : Calm e e := ⟨id, fun _ ↦ rfl, rfl, rfl⟩

theorem trans (h : Calm e t) (h' : Calm t u) : Calm e u where
  sound := fun he ↦ h'.sound (h.sound he)
  memory := fun s ↦ (h'.memory s).trans (h.memory s)
  confirmedS := h'.confirmedS.trans h.confirmedS
  confirmedV := h'.confirmedV.trans h.confirmedV

theorem of_quiet (h : e.Quiet t) : Calm e t :=
  ⟨h.sound, h.memory, by rw [h.slotInfo], by rw [h.versions]⟩

theorem of_moves (h : Moves e t) : Calm e t := by
  induction h with
  | refl => exact .refl e
  | tail _ hmove ih =>
      refine ih.trans ?_
      cases hmove with
      | quiet hq => exact .of_quiet hq
      | _ => exact ⟨id, fun _ ↦ rfl, rfl, rfl⟩

end Calm

/-! ## What an installation leaves alone -/

/-- Everything but the slot that an installation from `e` programs. -/
structure Spared (e t : EcuStore) : Prop where
  sound : t.Sound
  memory : ∀ s, s ≠ e.target → (t.slots s).memory = (e.slots s).memory
  confirmedS : t.slotInfo.confirmedSlot = e.slotInfo.confirmedSlot
  confirmedV : t.versions.confirmedSlot = e.versions.confirmedSlot

namespace Spared

variable {e t u : EcuStore} {v : VersionState} {w : SlotState} {D : SlotDir → Prop}

theorem of_stage (he : e.Sound) (h : Stage e v w D t) (hD : ∀ d, D d → d.Sound)
    (hv : v.confirmedSlot = e.versions.confirmedSlot)
    (hw : w.confirmedSlot = e.slotInfo.confirmedSlot) : Spared e t := by
  refine ⟨h.sound he hD, ?_, by rw [h.slotInfo, hw], by rw [h.versions, hv]⟩
  intro s hs
  rw [h.others s hs]

theorem calm (h : Spared e t) (h' : Calm t u) : Spared e u :=
  ⟨h'.sound h.sound, fun s hs ↦ (h'.memory s).trans (h.memory s hs),
    h'.confirmedS.trans h.confirmedS, h'.confirmedV.trans h.confirmedV⟩

theorem of_legacy (h : Legacy e t) (h' : Spared t u) : Spared e u := by
  obtain ⟨installed, rfl⟩ := h
  exact ⟨h'.sound, h'.memory, h'.confirmedS, h'.confirmedV⟩

end Spared

section Install

variable {e : EcuStore} {metadata : Firmware.FirmwareImageMetadata} {payload : Bytes}
  {firmwareFile : FirmwareFile} {ecuName targetVersion normalized : String}

theorem spared_of_stagingWrite {i : EcuFile} {t : EcuStore} (he : e.Sound)
    (h : StagingWrite e metadata payload firmwareFile targetVersion i t) : Spared e t := by
  rcases h.phase with h | h | ⟨normalized, -, h⟩
  · exact .of_stage he h (fun _ hd ↦ hd.sound) rfl rfl
  · exact .of_stage he h (fun _ hd ↦ hd.sound) rfl rfl
  · exact .of_stage he h (fun _ hd ↦ hd.sound) rfl rfl

theorem stage_and_reboot_spares (he : e.Sound) (haccepts : Accepts e firmwareFile metadata payload) :
    (do
      stageImage ecuName metadata payload firmwareFile targetVersion
      let _ ← RebootManager.reboot
      return true).wp
      (fun i t ↦ (∀ s, i = EcuFile.slot s .memory → s = e.target) ∧ Spared e t)
      (fun _ t ↦ Spared e t) e := by
  obtain ⟨image, hdownload, hextract⟩ := haccepts
  have hdesc := describes_of_extract hextract
  have hcrash : ∀ {i t}, StagingWrite e metadata payload firmwareFile targetVersion i t →
      (∀ s, i = EcuFile.slot s .memory → s = e.target) ∧ Spared e t :=
    fun h ↦ ⟨fun s hi ↦ h.label s _ hi, spared_of_stagingWrite he h⟩
  cases hversion : normalizeVersion targetVersion with
  | error err =>
      rw [Persist.wp_bind]
      refine Persist.wp_mono (stageImage_raises ecuName he hdesc hdownload hversion)
        (fun _ _ ↦ hcrash) ?_
      rintro _ t ⟨rfl, ht⟩
      exact .of_stage he ht (fun _ hd ↦ hd.sound) rfl rfl
  | ok normalized =>
      have hstage := (stageImage_observes ecuName he hdesc hdownload hversion).1
      refine Persist.wp_bind_of_returns
        (Persist.returns_mono hstage (fun _ _ ↦ hcrash) fun _ _ ↦ id) ?_
      intro _ t ht
      have hspared : Spared e t := .of_stage he ht (fun _ hd ↦ hd.1.sound) rfl rfl
      refine Persist.wp_bind_of_returns (Persist.returns_mono (moving_reboot t hspared.sound)
        (fun i u hu ↦ ⟨fun s hi ↦ absurd hi (hu.1 s), hspared.calm (.of_moves hu.2)⟩)
        fun _ _ hu ↦ hspared.calm (.of_moves hu)) ?_
      intro _ u hu
      exact (Persist.wp_pure _).mpr hu

/-- The installation writes no flash but that of its target slot, and none at all when it
refuses the download. -/
theorem install_spares (ecuName : String) (firmwareFile : FirmwareFile) (targetVersion : String)
    (he : e.Sound) :
    (install ecuName firmwareFile targetVersion).wp
      (fun i t ↦ (∀ s, i = EcuFile.slot s .memory →
          s = e.target ∧ ∃ metadata payload, Accepts e firmwareFile metadata payload) ∧
        Spared e t ∧
        ((¬∃ metadata payload, Accepts e firmwareFile metadata payload) → Calm e t))
      (fun _ t ↦ Spared e t) e := by
  have hlegacy : ∀ u, Legacy e u → Spared e u :=
    fun u hu ↦ .of_legacy hu ⟨hu.quiet.sound he, fun _ _ ↦ rfl, rfl, rfl⟩
  apply install_wp
  · exact fun u hu ↦ ⟨by rintro _ ⟨⟩, hlegacy u hu, fun _ ↦ .of_quiet hu.quiet⟩
  · exact fun err u _ hu ↦ hlegacy u hu
  · intro metadata payload u haccepts hu
    have haccepts' : Accepts u firmwareFile metadata payload := by
      obtain ⟨installed, rfl⟩ := hu
      exact haccepts
    have htarget : u.target = e.target := by
      obtain ⟨installed, rfl⟩ := hu
      rfl
    refine Persist.wp_mono (stage_and_reboot_spares (hu.quiet.sound he) haccepts') ?_
      fun _ _ ht ↦ .of_legacy hu ht
    rintro i t ⟨hi, ht⟩
    exact ⟨fun s hs ↦ ⟨htarget ▸ hi s hs, _, _, haccepts⟩, .of_legacy hu ht,
      fun hnot ↦ absurd ⟨_, _, haccepts⟩ hnot⟩

/-- An accepted image erases the target slot. -/
theorem install_erases (ecuName targetVersion : String)
    (haccepts : Accepts e firmwareFile metadata payload) :
    EcuFile.slot e.target .memory ∈ (install ecuName firmwareFile targetVersion).labels e := by
  obtain ⟨image, hdownload, hextract⟩ := haccepts
  refine Persist.mem_labels_bind_right (removeLegacyInstall_returns firmwareFile) ?_
  rintro _ u ⟨installed, rfl⟩
  refine Persist.mem_labels_bind_right (C := fun _ _ ↦ True) (readDownload_returns hdownload) ?_
  rintro _ _ ⟨rfl, rfl⟩
  refine Persist.mem_labels_bind_right (C := fun _ _ ↦ True)
    (P := fun p t ↦ p = (metadata, payload) ∧ t = { e with installed := installed })
    ((Persist.returns_ofExcept _).mpr ⟨_, hextract, rfl, rfl⟩) ?_
  rintro _ _ ⟨rfl, rfl⟩
  apply Persist.mem_labels_bind_left
  refine Persist.mem_labels_bind_right (inactiveSlot_performs.observes seeTransition
    (D := fun _ _ ↦ True) (fun _ _ ↦ False.elim) (by simp) (by simp)).1 ?_
  rintro _ _ ⟨rfl, rfl⟩
  apply Persist.mem_labels_bind_left
  rw [inSlot, Persist.labels_zoom]
  refine List.mem_map_of_mem (Persist.mem_labels_bind_left (Persist.mem_labels_bind_left ?_))
  simp [Persist.labels, Persist.write]

/-- Exactly the flash of the target slot is written, and only for an accepted image. -/
theorem memory_mem_labels_install (he : e.Sound) (c : Slot) :
    EcuFile.slot c .memory ∈ (install ecuName firmwareFile targetVersion).labels e ↔
      (∃ metadata payload, Accepts e firmwareFile metadata payload) ∧ c = e.target := by
  constructor
  · intro h
    by_contra hnot
    refine Persist.not_mem_labels (install_spares _ _ _ he) ?_ h
    rintro t ⟨hlabel, -⟩
    obtain ⟨hc, haccepts⟩ := hlabel c rfl
    exact hnot ⟨haccepts, hc⟩
  · rintro ⟨⟨metadata, payload, haccepts⟩, rfl⟩
    exact install_erases _ _ haccepts

end Install

/-! ## Runs -/

/-- A run whose installations meet `p`, each of them cut after any number of writes.  The
last two arguments are the flash contents that were confirmed last, by `commit_pending` and
by `confirm_version`. -/
inductive UpdateRun (p : EcuStore → FirmwareFile → Prop) :
    EcuStore → Option Bytes → Option Bytes → Prop
  | fresh {m : ℕ} {e : EcuStore} (h : Fresh m e) : UpdateRun p e none none
  | download {e : EcuStore} {imageS imageV : Option Bytes} (h : UpdateRun p e imageS imageV)
      (firmwareFile : FirmwareFile) (content : Bytes) :
      UpdateRun p ((Operation.download firmwareFile content).run.store e) imageS imageV
  | install {e : EcuStore} {imageS imageV : Option Bytes} (h : UpdateRun p e imageS imageV)
      (ecuName : String) (firmwareFile : FirmwareFile) (targetVersion : String) (k : ℕ)
      (hmay : p e firmwareFile) :
      UpdateRun p ((install ecuName firmwareFile targetVersion).cutAfter k e) imageS imageV
  | reboot {e : EcuStore} {imageS imageV : Option Bytes} (h : UpdateRun p e imageS imageV) :
      UpdateRun p (RebootManager.reboot.store e) imageS imageV
  | confirm {e : EcuStore} {imageS imageV : Option Bytes} (h : UpdateRun p e imageS imageV)
      {actual normalized : String} (hversion : normalizeVersion actual = .ok normalized) :
      UpdateRun p ((PostInstallValidator.confirm actual).store e)
        (e.slots e.slotInfo.activeSlot).memory
        (e.slots (e.versions.pendingSlot.getD e.versions.activeSlot)).memory
  | rollback {e : EcuStore} {imageS imageV : Option Bytes} (h : UpdateRun p e imageS imageV) :
      UpdateRun p (PostInstallValidator.rollback.store e) imageS imageV

/-- An installation that gets to the flash starts where the active slot is the confirmed
one of both records. -/
def SparesConfirmed (e : EcuStore) (firmwareFile : FirmwareFile) : Prop :=
  (∃ metadata payload, Accepts e firmwareFile metadata payload) →
    e.slotInfo.activeSlot = e.slotInfo.confirmedSlot ∧
      e.slotInfo.activeSlot = e.versions.confirmedSlot

/-- The flash of the confirmed slots holds the images confirmed last. -/
structure KeepsImages (imageS imageV : Option Bytes) (e : EcuStore) : Prop where
  sound : e.Sound
  slotRecord : (e.slots e.slotInfo.confirmedSlot).memory = imageS
  versionRecord : (e.slots e.versions.confirmedSlot).memory = imageV

namespace KeepsImages

variable {e t : EcuStore} {imageS imageV : Option Bytes}

theorem calm (h : KeepsImages imageS imageV e) (h' : Calm e t) : KeepsImages imageS imageV t := by
  refine ⟨h'.sound h.sound, ?_, ?_⟩
  · rw [h'.confirmedS, h'.memory, h.slotRecord]
  · rw [h'.confirmedV, h'.memory, h.versionRecord]

theorem spared (h : KeepsImages imageS imageV e) (h' : Spared e t)
    (hS : e.slotInfo.activeSlot = e.slotInfo.confirmedSlot)
    (hV : e.slotInfo.activeSlot = e.versions.confirmedSlot) : KeepsImages imageS imageV t := by
  refine ⟨h'.sound, ?_, ?_⟩
  · rw [h'.confirmedS, h'.memory _ (by rw [EcuStore.target, ← hS]; exact Slot.ne_other _),
      h.slotRecord]
  · rw [h'.confirmedV, h'.memory _ (by rw [EcuStore.target, ← hV]; exact Slot.ne_other _),
      h.versionRecord]

end KeepsImages

theorem UpdateRun.keepsImages {e : EcuStore} {imageS imageV : Option Bytes}
    (h : UpdateRun SparesConfirmed e imageS imageV) : KeepsImages imageS imageV e := by
  induction h with
  | fresh h =>
      refine ⟨h.sound, ?_, ?_⟩ <;> rw [h.slots]
  | download h firmwareFile content ih =>
      exact ih.calm ⟨id, fun _ ↦ rfl, rfl, rfl⟩
  | @install e imageS imageV h ecuName firmwareFile targetVersion k hmay ih =>
      -- the installation is refused, or its target is not confirmed in either record
      have hwrites := install_spares ecuName firmwareFile targetVersion ih.sound
      by_cases haccepts : ∃ metadata payload, Accepts e firmwareFile metadata payload
      · obtain ⟨hS, hV⟩ := hmay haccepts
        exact Persist.cutAfter_of_wp (Persist.wp_mono hwrites
          (fun _ t ht ↦ ih.spared ht.2.1 hS hV) fun _ _ _ ↦ trivial) ih k
      · exact Persist.cutAfter_of_wp (Persist.wp_mono hwrites
          (fun _ t ht ↦ ih.calm (ht.2.2 haccepts)) fun _ _ _ ↦ trivial) ih k
  | reboot h ih =>
      obtain ⟨_, _, hmoves⟩ := Persist.returns_run (moving_reboot _ ih.sound)
      exact ih.calm (.of_moves hmoves)
  | confirm h hversion ih =>
      obtain ⟨_, _, hquiet⟩ := (confirm_performs hversion ih.sound).run
      refine ⟨hquiet.sound ih.sound, ?_, ?_⟩
      · rw [hquiet.slotInfo, hquiet.memory]
        rfl
      · rw [hquiet.versions, hquiet.memory]
        rfl
  | rollback h ih =>
      obtain ⟨_, _, hmoves⟩ := Persist.returns_run (moving_rollback _ _ ih.sound)
      exact ih.calm (.of_moves hmoves)

/-- Along runs whose installations start from the confirmed slot, the confirmed images are
there, a rollback returns to them, and the next installation spares them exactly if it
starts from the confirmed slot, too. -/
theorem confirmed_image_kept (e : EcuStore) (imageS imageV : Option Bytes)
    (h : UpdateRun SparesConfirmed e imageS imageV) :
    ((e.slots e.slotInfo.confirmedSlot).memory = imageS ∧
      (e.slots e.versions.confirmedSlot).memory = imageV) ∧
    (∀ ecuName firmwareFile targetVersion,
      (EcuFile.slot e.slotInfo.confirmedSlot .memory ∉
          (install ecuName firmwareFile targetVersion).labels e ∧
        EcuFile.slot e.versions.confirmedSlot .memory ∉
          (install ecuName firmwareFile targetVersion).labels e) ↔
        SparesConfirmed e firmwareFile) ∧
    ((PostInstallValidator.rollback e).result = .ok ⟨⟩ ∧
      (PostInstallValidator.rollback.store e).slotInfo.activeSlot = e.slotInfo.confirmedSlot ∧
      (PostInstallValidator.rollback.store e).versions.activeSlot = e.versions.confirmedSlot ∧
      ((PostInstallValidator.rollback.store e).slots e.slotInfo.confirmedSlot).memory = imageS ∧
      ((PostInstallValidator.rollback.store e).slots e.versions.confirmedSlot).memory = imageV) := by
  have hkeeps := h.keepsImages
  refine ⟨⟨hkeeps.slotRecord, hkeeps.versionRecord⟩, ?_, ?_⟩
  · intro ecuName firmwareFile targetVersion
    rw [memory_mem_labels_install hkeeps.sound, memory_mem_labels_install hkeeps.sound]
    have hne : ∀ c : Slot, ¬(c = e.target) ↔ e.slotInfo.activeSlot = c := by
      intro c
      rw [EcuStore.target]
      cases c <;> cases e.slotInfo.activeSlot <;> simp [Slot.other]
    rw [SparesConfirmed, not_and, not_and, hne, hne, forall_and]
  · obtain ⟨_, hok, hquiet⟩ :=
      (rollback_performs "POST_INSTALL_VALIDATION_FAILED" hkeeps.sound).run
    change (e.rolledBack _).Quiet (PostInstallValidator.rollback.store e) at hquiet
    refine ⟨hok, ?_, ?_, ?_, ?_⟩
    · rw [hquiet.slotInfo]
      rfl
    · rw [hquiet.versions]
      rfl
    · rw [hquiet.memory]
      exact hkeeps.slotRecord
    · rw [hquiet.memory]
      exact hkeeps.versionRecord

/-! ## A run that loses the confirmed image -/

theorem spares_deliveredEcu : SparesConfirmed deliveredEcu bcmFirmware := fun _ ↦ ⟨rfl, rfl⟩

/-- Power lost in the first installation of a delivered ECU. -/
theorem confirmed_image_kept_delivered :
    let e := (install "bcm" bcmFirmware "2.0.0").cutAfter 9 deliveredEcu
    (e.slots e.slotInfo.confirmedSlot).memory = none :=
  (confirmed_image_kept _ none none
    ((UpdateRun.fresh fresh_deliveredEcu).install "bcm" bcmFirmware "2.0.0" 9
      spares_deliveredEcu)).1.1

/-- A second installation, before the first image is confirmed, erases the confirmed slot. -/
theorem confirmed_image_overwritten :
    ∃ e, UpdateRun (fun _ _ ↦ True) e none none ∧ e.slotInfo.confirmedSlot = .A ∧
      e.versions.confirmedSlot = .A ∧ e.versions.pendingCommit = true ∧
      EcuFile.slot .A .memory ∈ (install "bcm" bcmFirmware "3.0.0").labels e := by
  obtain ⟨e₁, hrun₁, hrep₁⟩ : ∃ e₁, UpdateRun (fun _ _ ↦ True) e₁ none none ∧
      Represents 1 ⟨.A, "1.0.0", some ⟨.B, "2.0.0", 1⟩⟩ e₁ := by
    obtain ⟨_, _, hrep⟩ := Persist.returns_run installed_deliveredEcu.1
    have hrun := (UpdateRun.fresh (p := fun _ _ ↦ True) fresh_deliveredEcu).install "bcm"
      bcmFirmware "2.0.0" ((install "bcm" bcmFirmware "2.0.0") deliveredEcu).writes.length trivial
    rw [Persist.cutAfter_of_length_le le_rfl] at hrun
    exact ⟨_, hrun, hrep⟩
  have hrun₂ := hrun₁.download bcmFirmware (Firmware.bareImage 1)
  have hrep₂ := hrep₁.quiet (download_quiet e₁ bcmFirmware (Firmware.bareImage 1))
  obtain ⟨metadata, haccepts⟩ := accepts_bareImage
    (e := (Operation.download bcmFirmware (Firmware.bareImage 1)).run.store e₁) (b := 1)
    (Function.update_self bcmFirmware _ e₁.downloads)
  have herases := install_erases "bcm" "3.0.0" haccepts
  rw [EcuStore.target, hrep₂.activeS] at herases
  exact ⟨_, hrun₂, hrep₂.confirmedS, hrep₂.confirmedV, hrep₂.commit, herases⟩

end VehicleOta.Ecu
