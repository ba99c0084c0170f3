import VehicleOta.Ecu.Moves
import VehicleOta.Ecu.Operations

/-!
# Losing power during an installation

Wherever an installation stops, the next reboot returns to the confirmed image or boots the
target slot with the whole image in its flash.
-/

namespace VehicleOta.Ecu

open CrashLogic FirmwareInstaller FlashMemoryEmulator

/-! ## Reachable stores -/

/-- Any operations, each cut after any number of its writes; a cut behind the last write is
the complete operation, also one that ends with an exception. -/
inductive Reachable : EcuStore → Prop
  | fresh {m : ℕ} {e : EcuStore} (h : Fresh m e) (hm : 1 ≤ m) : Reachable e
  | step {e : EcuStore} (h : Reachable e) (op : Operation) (k : ℕ) :
      Reachable (op.run.cutAfter k e)

/-- What a rollback relies on in every reachable store. -/
structure Recoverable (e : EcuStore) : Prop where
  sound : e.Sound
  limit : 1 ≤ e.slotInfo.maxBootAttempts
  current : e.versions.pendingCommit = false →
    e.versions.currentVersion = e.versions.confirmedVersion

namespace Recoverable

variable {e t : EcuStore}

theorem quiet (h : Recoverable e) (hq : e.Quiet t) : Recoverable t := by
  refine ⟨hq.sound h.sound, ?_, ?_⟩
  · rw [hq.slotInfo]
    exact h.limit
  · rw [hq.versions]
    exact h.current

theorem move (h : Recoverable e) (hmove : Move e t) : Recoverable t := by
  cases hmove with
  | quiet hq => exact h.quiet hq
  | openRecord => exact ⟨h.sound, h.limit, h.current⟩
  | activate p => exact ⟨h.sound, h.limit, h.current⟩
  | rollback reason => exact ⟨h.sound, h.limit, h.current⟩
  | bootVersion => exact ⟨h.sound, h.limit, fun hc ↦ absurd hc (by simp)⟩
  | rollbackVersion reason => exact ⟨h.sound, h.limit, fun _ ↦ rfl⟩

theorem moves (h : Recoverable e) (hmoves : Moves e t) : Recoverable t := by
  induction hmoves with
  | refl => exact h
  | tail _ hmove ih => exact ih.move hmove

theorem moving {α : Type} {m : EcuM α} (h : Recoverable e) (hm : Moving m) :
    m.returns (fun _ t ↦ Recoverable t) (fun _ t ↦ Recoverable t) e :=
  Persist.returns_mono (hm e h.sound) (fun _ _ hw ↦ h.moves hw.2) fun _ _ ht ↦ h.moves ht

variable {metadata : Firmware.FirmwareImageMetadata} {payload : Bytes}
  {firmwareFile : FirmwareFile} {ecuName targetVersion : String}

theorem stage {v : VersionState} {D : SlotDir → Prop} (h : Recoverable e)
    (hs : Stage e v (stagedInfo e firmwareFile targetVersion) D t) (hD : ∀ d, D d → d.Sound)
    (hv : v.pendingCommit = false → v.currentVersion = v.confirmedVersion) : Recoverable t := by
  refine ⟨hs.sound h.sound hD, ?_, ?_⟩
  · rw [hs.slotInfo]
    exact h.limit
  · rw [hs.versions]
    exact hv

theorem stagingWrite {i : EcuFile} (h : Recoverable e)
    (hw : StagingWrite e metadata payload firmwareFile targetVersion i t) : Recoverable t := by
  rcases hw.phase with hs | hs | ⟨normalized, -, hs⟩
  · refine ⟨hs.sound h.sound fun _ hd ↦ hd.sound, ?_, ?_⟩
    · rw [hs.slotInfo]
      exact h.limit
    · rw [hs.versions]
      exact h.current
  · exact h.stage hs (fun _ hd ↦ hd.sound) h.current
  · exact h.stage hs (fun _ hd ↦ hd.sound) fun hc ↦ absurd hc (by simp)

theorem install (h : Recoverable e) :
    (install ecuName firmwareFile targetVersion).wp (fun _ t ↦ Recoverable t) (fun _ _ ↦ True)
      e := by
  apply install_wp
  · exact fun u hu ↦ h.quiet hu.quiet
  · exact fun _ _ _ _ ↦ trivial
  · intro metadata payload u ⟨image, hdownload, hextract⟩ hu
    have hdesc := describes_of_extract hextract
    have hu' := h.quiet hu.quiet
    have hdown : u.downloads firmwareFile = some image := by
      obtain ⟨installed, rfl⟩ := hu
      exact hdownload
    cases hversion : normalizeVersion targetVersion with
    | error err =>
        rw [Persist.wp_bind]
        refine Persist.wp_mono (stageImage_raises ecuName hu'.sound hdesc hdown hversion)
          (fun _ _ hw ↦ hu'.stagingWrite hw) ?_
        rintro _ t ⟨rfl, -⟩
        trivial
    | ok normalized =>
        have hstage := (stageImage_observes ecuName hu'.sound hdesc hdown hversion).1
        refine Persist.wp_bind_of_returns (Persist.returns_mono hstage
          (fun _ _ hw ↦ hu'.stagingWrite hw) fun _ _ ↦ id) ?_
        intro _ t ht
        have ht' : Recoverable t := hu'.stage ht (fun _ hd ↦ hd.1.sound) fun hc ↦ absurd hc (by simp)
        exact Persist.wp_bind_of_returns (ht'.moving moving_reboot)
          fun _ _ _ ↦ (Persist.wp_pure _).mpr trivial

theorem confirm {actual : String} (h : Recoverable e) :
    (PostInstallValidator.confirm actual).wp (fun _ t ↦ Recoverable t) (fun _ _ ↦ True) e := by
  cases hversion : normalizeVersion actual with
  | error err =>
      simp [PostInstallValidator.confirm, VersionManager.confirmVersion, hversion]
  | ok normalized =>
      have hconfirmed : ∀ {v w}, v = e.versions.confirm normalized → w = e.slotInfo ∨
          w = e.slotInfo.commitPending → Recoverable ((e.setVersions v).setSlotInfo w) := by
        rintro v w rfl (rfl | rfl) <;> exact ⟨h.sound, h.limit, fun _ ↦ rfl⟩
      have hspec := Persist.performs_mono (confirm_performs hversion h.sound)
        (D := fun _ t ↦ Recoverable t) (fun _ _ hw ↦ (hconfirmed rfl (Or.inr rfl)).quiet hw.2)
        fun _ _ _ ↦ trivial
      refine Persist.wp_mono (hspec.returns ?_) (fun _ _ ↦ id) fun _ _ _ ↦ trivial
      intro w hw
      rcases List.mem_cons.mp hw with rfl | hw
      · exact ⟨h.sound, h.limit, fun _ ↦ rfl⟩
      rcases List.mem_append.mp hw with hw | hw
      · rw [SlotManager.openingWrites] at hw
        split at hw
        · obtain rfl := List.mem_singleton.mp hw
          exact hconfirmed rfl (Or.inl rfl)
        · cases hw
      · obtain rfl := List.mem_singleton.mp hw
        exact hconfirmed rfl (Or.inr rfl)

end Recoverable

theorem Fresh.recoverable {m : ℕ} {e : EcuStore} (h : Fresh m e) (hm : 1 ≤ m) : Recoverable e := by
  refine ⟨h.sound, ?_, ?_⟩
  · rw [h.slotInfo]
    exact hm
  · rw [h.versions]
    exact fun _ ↦ rfl

theorem Reachable.recoverable {e : EcuStore} (h : Reachable e) : Recoverable e := by
  induction h with
  | fresh h hm => exact h.recoverable hm
  | @step e h op k ih =>
      have hwp : op.run.wp (fun _ t ↦ Recoverable t) (fun _ _ ↦ True) e := by
        cases op with
        | download firmwareFile content =>
            exact (Persist.wp_write _ _).mpr ⟨ih.quiet (download_quiet e firmwareFile content), trivial⟩
        | install ecuName firmwareFile targetVersion =>
            rw [Operation.run, Persist.wp_bind]
            refine Persist.wp_mono ih.install (fun _ _ ↦ id) ?_
            rintro (_ | _) _ _ <;> simp
        | reboot =>
            exact Persist.wp_bind_of_returns (ih.moving moving_reboot) fun _ _ _ ↦ by simp
        | confirm actual => exact ih.confirm
        | rollback =>
            exact Persist.wp_mono (ih.moving (moving_rollback _)) (fun _ _ ↦ id) fun _ _ _ ↦ trivial
      exact Persist.cutAfter_of_wp hwp ih k

/-! ## The reboot behind an interrupted installation -/

/-- No update is pending in either record, and the active slot is the confirmed one. -/
structure Settled (e : EcuStore) : Prop where
  pendingS : e.slotInfo.pendingSlot = none
  pendingV : e.versions.pendingSlot = none
  commit : e.versions.pendingCommit = false
  activeS : e.slotInfo.activeSlot = e.slotInfo.confirmedSlot
  activeV : e.versions.activeSlot = e.versions.confirmedSlot

/-- Both records name the slots and versions that they named in `e`. -/
structure Restored (e t : EcuStore) : Prop where
  activeV : t.versions.activeSlot = e.versions.activeSlot
  confirmedV : t.versions.confirmedSlot = e.versions.confirmedSlot
  current : t.versions.currentVersion = e.versions.currentVersion
  version : t.versions.confirmedVersion = e.versions.confirmedVersion
  activeS : t.slotInfo.activeSlot = e.slotInfo.activeSlot
  confirmedS : t.slotInfo.confirmedSlot = e.slotInfo.confirmedSlot

/-- Both records have the target slot active, its journal is closed, and reading its flash
at the address of the image gives the payload. -/
structure Updated (e : EcuStore) (metadata : Firmware.FirmwareImageMetadata) (payload : Bytes)
    (t : EcuStore) : Prop where
  activeV : t.versions.activeSlot = e.target
  activeS : t.slotInfo.activeSlot = e.target
  closed : (t.slots e.target).incomplete = false
  image : ImageIn metadata payload (t.slots e.target)
  readback : ((flashFor metadata).read metadata.flashAddress payload.length
    (t.slots e.target)).result = .ok payload

/-- A reboot from here completes with one of the two outcomes. -/
def Resumes (e : EcuStore) (metadata : Firmware.FirmwareImageMetadata) (payload : Bytes)
    (c : EcuStore) : Prop :=
  RebootManager.reboot.returns (fun _ _ ↦ True)
    (fun _ t ↦ Restored e t ∨ Updated e metadata payload t) c

/-- The confirmed image of `e` is still what both records would return to. -/
structure KeepsConfirmed (e c : EcuStore) : Prop where
  sound : c.Sound
  confirmedV : c.versions.confirmedSlot = e.versions.confirmedSlot
  version : c.versions.confirmedVersion = e.versions.confirmedVersion
  confirmedS : c.slotInfo.confirmedSlot = e.slotInfo.confirmedSlot

section Resume

variable {e c t : EcuStore} {metadata : Firmware.FirmwareImageMetadata} {payload : Bytes}
  {firmwareFile : FirmwareFile} {ecuName targetVersion normalized : String}

theorem Restored.quiet (h : Restored e c) (hq : c.Quiet t) : Restored e t := by
  refine ⟨?_, ?_, ?_, ?_, ?_, ?_⟩
  · rw [hq.versions, h.activeV]
  · rw [hq.versions, h.confirmedV]
  · rw [hq.versions, h.current]
  · rw [hq.versions, h.version]
  · rw [hq.slotInfo, h.activeS]
  · rw [hq.slotInfo, h.confirmedS]

theorem KeepsConfirmed.rolledBack (h : KeepsConfirmed e c) (he : Recoverable e) (hs : Settled e)
    (reason : String) : Restored e (c.rolledBack reason) where
  activeV := h.confirmedV.trans hs.activeV.symm
  confirmedV := h.confirmedV
  current := h.version.trans (he.current hs.commit).symm
  version := h.version
  activeS := h.confirmedS.trans hs.activeS.symm
  confirmedS := h.confirmedS

/-- With the records of a settled store a reboot changes neither. -/
theorem restores_of_unchanged (hs : Settled e) (hV : c.versions = e.versions)
    (hS : c.slotInfo = e.slotInfo) :
    RebootManager.reboot.returns (fun _ _ ↦ True) (fun _ t ↦ Restored e t) c := by
  have hidle := Persist.performs_mono (reboot_idle (e := c) (by rw [hS, hs.pendingS])
    (by rw [hV, hs.commit])) (D := fun _ _ ↦ True) (fun _ _ _ ↦ trivial) fun _ _ ↦ id
  refine Persist.returns_mono (hidle.returns fun _ _ ↦ trivial) (fun _ _ ↦ id) ?_
  rintro _ _ ⟨-, rfl⟩
  exact ⟨by simp [hV], by simp [hV], by simp [hV], by simp [hV], by simp [hS], by simp [hS]⟩

theorem resumes_of_unchanged (hs : Settled e) (hV : c.versions = e.versions)
    (hS : c.slotInfo = e.slotInfo) : Resumes e metadata payload c :=
  Persist.returns_mono (restores_of_unchanged hs hV hS) (fun _ _ ↦ id) fun _ _ ↦ Or.inl

/-- The installation has not closed the journal. -/
theorem resumes_of_incomplete (he : Recoverable e) (hs : Settled e) (h : KeepsConfirmed e c)
    (hpending : c.slotInfo.pendingSlot = some e.target)
    (hinc : (c.slots e.target).incomplete = true) : Resumes e metadata payload c := by
  have hrecover := Persist.performs_mono (reboot_recovers hpending hinc h.sound)
    (D := fun _ _ ↦ True) (fun _ _ _ ↦ trivial) fun _ _ ↦ id
  refine Persist.returns_mono (hrecover.returns fun _ _ ↦ trivial) (fun _ _ ↦ id) ?_
  rintro _ t ⟨-, ht⟩
  exact Or.inl ((h.rolledBack he hs _).quiet ht)

/-- The image is verified and both records point to it, whatever has been booted of it. -/
structure OnTrial (e : EcuStore) (metadata : Firmware.FirmwareImageMetadata) (payload : Bytes)
    (c : EcuStore) : Prop extends KeepsConfirmed e c where
  pendingS : c.slotInfo.pendingSlot = some e.target
  pendingV : c.versions.pendingSlot = some e.target
  commit : c.versions.pendingCommit = true
  pendingVersion : c.versions.pendingVersion ≠ ""
  closed : (c.slots e.target).incomplete = false
  image : ImageIn metadata payload (c.slots e.target)

theorem imageIn_quiet {d d' : SlotDir} (h : ImageIn metadata payload d) (hq : d.Quiet d') :
    ImageIn metadata payload d' :=
  ⟨hq.memory ▸ h.memory, hq.layout ▸ h.layout⟩

theorem OnTrial.quiet (h : OnTrial e metadata payload c) (hq : c.Quiet t) :
    OnTrial e metadata payload t where
  sound := hq.sound h.sound
  confirmedV := hq.versions ▸ h.confirmedV
  version := hq.versions ▸ h.version
  confirmedS := hq.slotInfo ▸ h.confirmedS
  pendingS := hq.slotInfo ▸ h.pendingS
  pendingV := hq.versions ▸ h.pendingV
  commit := hq.versions ▸ h.commit
  pendingVersion := hq.versions ▸ h.pendingVersion
  closed := hq.incomplete h.closed
  image := imageIn_quiet h.image (hq.slots _)

theorem updated_of_booted (hdesc : Describes metadata payload) (h : OnTrial e metadata payload c)
    (hq : (c.booted e.target).Quiet t) : Updated e metadata payload t := by
  have himage : ImageIn metadata payload (t.slots e.target) := imageIn_quiet h.image (hq.slots _)
  have hfit : payload.length ≤ (flashFor metadata).partitionSize :=
    hdesc.size.le.trans payloadSize_le_partitionSize
  obtain ⟨_, hread, rfl, -⟩ := Persist.returns_run
    (read_returns (flashFor metadata) (C := fun _ _ ↦ True) hfit himage.memory)
  refine ⟨?_, ?_, hq.incomplete h.closed, himage, hread⟩
  · rw [hq.versions]
    simp [EcuStore.booted, VersionState.bootPending, h.pendingV]
  · rw [hq.slotInfo]
    rfl

theorem resumes_of_onTrial (he : Recoverable e) (hs : Settled e)
    (hdesc : Describes metadata payload) (h : OnTrial e metadata payload c) :
    Resumes e metadata payload c := by
  by_cases hlimit : c.slotInfo.maxBootAttempts ≤ c.slotInfo.bootAttempts
  · have hroll := Persist.performs_mono
      (reboot_limit h.pendingS h.closed h.commit hlimit h.sound)
      (D := fun _ _ ↦ True) (fun _ _ _ ↦ trivial) fun _ _ ↦ id
    refine Persist.returns_mono (hroll.returns fun _ _ ↦ trivial) (fun _ _ ↦ id) ?_
    rintro _ t ⟨-, ht⟩
    exact Or.inl ((h.rolledBack he hs _).quiet ht)
  · have hboot := Persist.performs_mono
      (reboot_boots h.pendingS h.closed h.commit h.pendingVersion (by omega) h.sound)
      (D := fun _ _ ↦ True) (fun _ _ _ ↦ trivial) fun _ _ ↦ id
    refine Persist.returns_mono (hboot.returns fun _ _ ↦ trivial) (fun _ _ ↦ id) ?_
    rintro _ t ⟨-, ht⟩
    exact Or.inr (updated_of_booted hdesc h ht)

theorem keepsConfirmed_of_stage {v : VersionState} {w : SlotState} {D : SlotDir → Prop}
    (he : e.Sound) (h : Stage e v w D c) (hD : ∀ d, D d → d.Sound)
    (hslot : v.confirmedSlot = e.versions.confirmedSlot)
    (hversion : v.confirmedVersion = e.versions.confirmedVersion)
    (hw : w.confirmedSlot = e.slotInfo.confirmedSlot) : KeepsConfirmed e c :=
  ⟨h.sound he hD, by rw [h.versions, hslot], by rw [h.versions, hversion], by rw [h.slotInfo, hw]⟩

theorem onTrial_of_staged (he : e.Sound) (hversion : normalized ≠ "")
    (h : Stage e (e.versions.pend normalized (some e.target))
      (stagedInfo e firmwareFile targetVersion) (ImageIn metadata payload) c)
    (hclosed : (c.slots e.target).incomplete = false) : OnTrial e metadata payload c :=
  { keepsConfirmed_of_stage he h (fun _ hd ↦ hd.sound) rfl rfl rfl with
    pendingS := by rw [h.slotInfo]; rfl
    pendingV := by rw [h.versions]; rfl
    commit := by rw [h.versions]; rfl
    pendingVersion := by rw [h.versions]; exact hversion
    closed := hclosed
    image := h.target }

/-- Wherever staging is cut, the reboot resumes. -/
theorem resumes_of_stagingWrite {i : EcuFile} (he : Recoverable e) (hs : Settled e)
    (hdesc : Describes metadata payload)
    (h : StagingWrite e metadata payload firmwareFile targetVersion i c) :
    Resumes e metadata payload c := by
  rcases h.phase with h | h | ⟨normalized, hversion, h⟩
  · exact resumes_of_unchanged hs h.versions h.slotInfo
  · exact resumes_of_incomplete he hs
      (keepsConfirmed_of_stage he.sound h (fun _ hd ↦ hd.sound) rfl rfl rfl)
      (by rw [h.slotInfo]; rfl) h.target.incomplete
  · cases hinc : (c.slots e.target).incomplete with
    | true =>
        exact resumes_of_incomplete he hs
          (keepsConfirmed_of_stage he.sound h (fun _ hd ↦ hd.sound) rfl rfl rfl)
          (by rw [h.slotInfo]; rfl) hinc
    | false =>
        exact resumes_of_onTrial he hs hdesc
          (onTrial_of_staged he.sound (normalizeVersion_ne_empty hversion) h hinc)

/-- Every write of the reboot that ends the installation leaves the image on trial. -/
theorem reboot_keeps_onTrial (hlimit : c.slotInfo.bootAttempts < c.slotInfo.maxBootAttempts)
    (h : OnTrial e metadata payload c) :
    RebootManager.reboot.returns (fun _ t ↦ OnTrial e metadata payload t) (fun _ _ ↦ True) c := by
  have hbooted : OnTrial e metadata payload (c.booted e.target) :=
    { h with commit := rfl }
  have hboot := Persist.performs_mono
    (reboot_boots h.pendingS h.closed h.commit h.pendingVersion hlimit h.sound)
    (D := fun _ t ↦ OnTrial e metadata payload t) (fun _ _ hw ↦ hbooted.quiet hw.2)
    fun _ _ _ ↦ trivial
  refine hboot.returns ?_
  simp only [List.mem_cons, List.not_mem_nil, or_false, forall_eq_or_imp, forall_eq]
  exact ⟨{ h with commit := rfl }, hbooted⟩

theorem stage_and_reboot_resumes {image : Bytes} (ecuName : String) (he : Recoverable e) (hs : Settled e)
    (hdesc : Describes metadata payload) (hdownload : e.downloads firmwareFile = some image) :
    (do
      stageImage ecuName metadata payload firmwareFile targetVersion
      let _ ← RebootManager.reboot
      return true).wp (fun _ c ↦ Resumes e metadata payload c) (fun _ _ ↦ True) e := by
  cases hversion : normalizeVersion targetVersion with
  | error err =>
      rw [Persist.wp_bind]
      refine Persist.wp_mono (stageImage_raises ecuName he.sound hdesc hdownload
        hversion) (fun _ _ hw ↦ resumes_of_stagingWrite he hs hdesc hw) ?_
      rintro _ t ⟨rfl, -⟩
      trivial
  | ok normalized =>
      have hstage := (stageImage_observes ecuName he.sound hdesc hdownload hversion).1
      refine Persist.wp_bind_of_returns (Persist.returns_mono hstage
        (fun _ _ hw ↦ resumes_of_stagingWrite he hs hdesc hw) fun _ _ ↦ id) ?_
      intro _ c hc
      have htrial : OnTrial e metadata payload c :=
        onTrial_of_staged he.sound (normalizeVersion_ne_empty hversion)
          (hc.mono fun _ hd ↦ hd.1) hc.target.2
      have hlimit : c.slotInfo.bootAttempts < c.slotInfo.maxBootAttempts := by
        rw [hc.slotInfo]
        exact he.limit
      refine Persist.wp_bind_of_returns (Persist.returns_mono (reboot_keeps_onTrial hlimit htrial)
        (fun _ _ ht ↦ resumes_of_onTrial he hs hdesc ht) fun _ _ ↦ id) ?_
      exact fun _ _ _ ↦ (Persist.wp_pure _).mpr trivial

/-- Every store that an installation leaves resumes. -/
theorem install_resumes (ecuName : String) (firmwareFile : FirmwareFile)
    (targetVersion : String) (he : Recoverable e) (hs : Settled e) :
    (install ecuName firmwareFile targetVersion).wp
      (fun _ c ↦ RebootManager.reboot.returns (fun _ _ ↦ True)
        (fun _ t ↦ Restored e t ∨ ∃ metadata payload,
          Accepts e firmwareFile metadata payload ∧ Updated e metadata payload t) c)
      (fun _ _ ↦ True) e := by
  apply install_wp
  · intro u hu
    exact Persist.returns_mono (restores_of_unchanged hs hu.quiet.versions hu.quiet.slotInfo)
      (fun _ _ ↦ id) fun _ _ ↦ Or.inl
  · exact fun _ _ _ _ ↦ trivial
  · rintro metadata payload _ haccepts ⟨installed, rfl⟩
    obtain ⟨image, hdownload, hextract⟩ := id haccepts
    have he' : Recoverable { e with installed := installed } := ⟨he.sound, he.limit, he.current⟩
    have hs' : Settled { e with installed := installed } :=
      ⟨hs.pendingS, hs.pendingV, hs.commit, hs.activeS, hs.activeV⟩
    refine Persist.wp_mono (stage_and_reboot_resumes ecuName he' hs'
      (describes_of_extract hextract) hdownload) (fun _ c hc ↦ ?_) fun _ _ _ ↦ trivial
    refine Persist.returns_mono hc (fun _ _ ↦ id) ?_
    rintro _ t (ht | ht)
    · exact Or.inl ⟨ht.activeV, ht.confirmedV, ht.current, ht.version, ht.activeS, ht.confirmedS⟩
    · exact Or.inr ⟨metadata, payload, haccepts, ht.activeV, ht.activeS, ht.closed, ht.image,
        ht.readback⟩

end Resume

/-- Power-loss safety: the installation stops after `k` writes, at its end or at an
exception, and the reboot completes. -/
theorem install_power_loss (e : EcuStore) (h : Reachable e) (hs : Settled e) (ecuName : String)
    (firmwareFile : FirmwareFile) (targetVersion : String) (k : ℕ) :
    let c := (install ecuName firmwareFile targetVersion).cutAfter k e
    (RebootManager.reboot c).result.isOk ∧
      (Restored e (RebootManager.reboot.store c) ∨
        ∃ metadata payload, Accepts e firmwareFile metadata payload ∧
          Updated e metadata payload (RebootManager.reboot.store c)) := by
  have he := h.recoverable
  have hstart : RebootManager.reboot.returns (fun _ _ ↦ True)
      (fun _ t ↦ Restored e t ∨ ∃ metadata payload,
        Accepts e firmwareFile metadata payload ∧ Updated e metadata payload t) e :=
    Persist.returns_mono (restores_of_unchanged hs rfl rfl) (fun _ _ ↦ id) fun _ _ ↦ Or.inl
  have hcut := Persist.cutAfter_of_wp (install_resumes ecuName firmwareFile targetVersion he hs)
    hstart k
  obtain ⟨_, hok, houtcome⟩ := Persist.returns_run hcut
  exact ⟨by rw [hok]; rfl, houtcome⟩

theorem settled_deliveredEcu : Settled deliveredEcu := ⟨rfl, rfl, rfl, rfl, rfl⟩

/-- A delivered ECU that loses power after seven writes of its first installation. -/
theorem install_power_loss_delivered :
    let c := (install "bcm" bcmFirmware "2.0.0").cutAfter 7 deliveredEcu
    (RebootManager.reboot c).result.isOk ∧
      (Restored deliveredEcu (RebootManager.reboot.store c) ∨
        ∃ metadata payload, Accepts deliveredEcu bcmFirmware metadata payload ∧
          Updated deliveredEcu metadata payload (RebootManager.reboot.store c)) :=
  install_power_loss deliveredEcu (.fresh fresh_deliveredEcu le_rfl) settled_deliveredEcu "bcm"
    bcmFirmware "2.0.0" 7

end VehicleOta.Ecu
