import VehicleOta.Ecu.RecordSpec

/-!
# What an installation leaves at every point

The records move from the old ones over a slot record that names the target slot to a
version record that agrees with it.  Until the image has been read back the journal of the
target slot is incomplete; once it is closed the flash of the slot holds the image.
-/

namespace VehicleOta.Ecu

open CrashLogic Firmware FlashMemoryEmulator

/-- The slot that an installation from this store programs. -/
def EcuStore.target (e : EcuStore) : Slot := e.slotInfo.activeSlot.other

/-- A store behind `e` with the given records, where only the target slot has changed. -/
structure Stage (e : EcuStore) (v : VersionState) (w : SlotState) (D : SlotDir → Prop)
    (t : EcuStore) : Prop where
  versions : t.versions = v
  slotState : t.slotState = some w
  others : ∀ s, s ≠ e.target → t.slots s = e.slots s
  target : D (t.slots e.target)

namespace Stage

variable {e t u : EcuStore} {v : VersionState} {w : SlotState} {D D' : SlotDir → Prop}

theorem slotInfo (h : Stage e v w D t) : t.slotInfo = w := EcuStore.slotInfo_of_some h.slotState

theorem mono (h : Stage e v w D t) (hD : ∀ d, D d → D' d) : Stage e v w D' t :=
  ⟨h.versions, h.slotState, h.others, hD _ h.target⟩

theorem setSlot (h : Stage e v w D t) {d : SlotDir} (hd : D' d) :
    Stage e v w D' (t.setSlot e.target d) := by
  refine ⟨h.versions, h.slotState, ?_, ?_⟩
  · intro s hs
    rw [EcuStore.slots_setSlot_of_ne _ _ hs, h.others s hs]
  · rwa [EcuStore.slots_setSlot_self]

theorem setSlotInfo (h : Stage e v w D t) (w' : SlotState) :
    Stage e v w' D (t.setSlotInfo w') :=
  ⟨h.versions, rfl, h.others, h.target⟩

theorem setVersions (h : Stage e v w D t) (v' : VersionState) :
    Stage e v' w D (t.setVersions v') :=
  ⟨rfl, h.slotState, h.others, h.target⟩

theorem sound (h : Stage e v w D t) (he : e.Sound) (hD : ∀ d, D d → d.Sound) : t.Sound := by
  intro s
  by_cases hs : s = e.target
  · rw [hs]
    exact hD _ h.target
  · rw [h.others s hs]
    exact he s

/-- A flash program in the target slot. -/
theorem inSlot {α : Type} {m : FlashM α} {C : SlotFile → SlotDir → Prop} {P : α → SlotDir → Prop}
    (h : Stage e v w D t) (hm : m.returns C P (t.slots e.target)) :
    (Ecu.inSlot e.target m).returns
      (fun i u ↦ (∃ f, i = .slot e.target f) ∧ ∃ f, Stage e v w (C f) u)
      (fun a u ↦ Stage e v w (P a) u ∧ u.downloads = t.downloads) t := by
  refine (Persist.returns_zoom (t.setSlot_self e.target)).mpr ?_
  exact Persist.returns_mono hm (fun f _ hf ↦ ⟨⟨f, rfl⟩, f, h.setSlot hf⟩)
    fun _ _ ha ↦ ⟨h.setSlot ha, rfl⟩

end Stage

/-- The transitions of `slot_state.json`, as its file shows them. -/
def seeTransition (i : EcuFile) (t : EcuStore) : Option Transition :=
  if i = .slotState then some t.slotInfo.lastTransition else none

@[simp] theorem seeTransition_slotState (t : EcuStore) :
    seeTransition .slotState t = some t.slotInfo.lastTransition := rfl

@[simp] theorem seeTransition_version (t : EcuStore) : seeTransition .version t = none := rfl

theorem seeTransition_quiet {e t : EcuStore} {i : EcuFile} (h : e.QuietWrite i t) :
    seeTransition i t = none := by
  obtain ⟨⟨s, rfl | rfl⟩, -⟩ := h <;> rfl

namespace FirmwareInstaller

variable {e t : EcuStore} {metadata : FirmwareImageMetadata} {payload : Bytes}
  {firmwareFile : FirmwareFile} {ecuName targetVersion : String}

/-- The metadata describe the payload, as `extract_firmware_payload` checks. -/
structure Describes (metadata : FirmwareImageMetadata) (payload : Bytes) : Prop where
  size : payload.length = metadata.payloadSize
  sha256 : metadata.payloadSha256 = Hash.hexDigest (Hash.sha256 payload)

theorem describes_of_extract {image : Bytes}
    (h : extractFirmwarePayload image = .ok (metadata, payload)) : Describes metadata payload := by
  obtain ⟨hsize, hsha⟩ := extractFirmwarePayload_ok h
  exact ⟨hsize, hsha⟩

/-- The slot record once the image is staged. -/
def stagedInfo (e : EcuStore) (firmwareFile : FirmwareFile) (targetVersion : String) : SlotState :=
  e.slotInfo.markPending e.target firmwareFile targetVersion

/-- The flash of the target slot holds the programmed image. -/
abbrev ImageIn (metadata : FirmwareImageMetadata) (payload : Bytes) (d : SlotDir) : Prop :=
  (flashFor metadata).Holds (flashImage metadata payload) d

/-- … and the journal of the slot is not closed. -/
abbrev ImageOpen (metadata : FirmwareImageMetadata) (payload : Bytes) (d : SlotDir) : Prop :=
  (flashFor metadata).Prepared (flashImage metadata payload) d

/-- What a write of `stageImage` leaves. -/
structure StagingWrite (e : EcuStore) (metadata : FirmwareImageMetadata) (payload : Bytes)
    (firmwareFile : FirmwareFile) (targetVersion : String) (i : EcuFile) (t : EcuStore) : Prop where
  label : ∀ s f, i = .slot s f → s = e.target
  phase : Stage e e.versions e.slotInfo (Flashing (e.slots e.target)) t ∨
    Stage e e.versions (stagedInfo e firmwareFile targetVersion) (ImageOpen metadata payload) t ∨
    ∃ normalized, normalizeVersion targetVersion = .ok normalized ∧
      Stage e (e.versions.pend normalized (some e.target)) (stagedInfo e firmwareFile targetVersion)
        (ImageIn metadata payload) t

theorem other_eq (s : Slot) : (if s = .A then Slot.B else Slot.A) = s.other := by
  cases s <;> rfl

theorem inactiveSlot_performs :
    SlotManager.inactiveSlot.performs (SlotManager.openingWrites e) (fun _ _ ↦ False)
      (fun s t ↦ s = e.target ∧ t = e.setSlotInfo e.slotInfo) e := by
  rw [← List.append_nil (SlotManager.openingWrites e), SlotManager.inactiveSlot]
  refine Persist.performs_bind (P := fun s t ↦ s = e.slotInfo.activeSlot ∧
    t = e.setSlotInfo e.slotInfo) ?_ ?_
  · rw [← List.append_nil (SlotManager.openingWrites e)]
    apply Persist.performs_bind SlotManager.loadState_performs
    rintro _ _ ⟨rfl, rfl⟩
    exact Persist.performs_pure _ ⟨rfl, rfl⟩
  · rintro _ _ ⟨rfl, rfl⟩
    exact Persist.performs_pure _ ⟨other_eq _, rfl⟩

/-- The manager sees the target of the installation while the slot record is unchanged. -/
theorem inactiveSlot_returns {D : SlotDir → Prop} {C : EcuFile → EcuStore → Prop}
    (h : Stage e e.versions e.slotInfo D t) :
    SlotManager.inactiveSlot.returns C (fun s u ↦ s = e.target ∧ u = t) t := by
  have hinactive := inactiveSlot_performs (e := t)
  rw [SlotManager.openingWrites, if_neg (by simp [h.slotState]),
    EcuStore.setSlotInfo_slotInfo (by simp [h.slotState]), EcuStore.target, h.slotInfo] at hinactive
  exact Persist.returns_mono (Persist.performs_nil.mp hinactive) (fun _ _ ↦ False.elim)
    fun _ _ ↦ id

theorem stageFirmware_returns {image : Bytes}
    (hdownload : t.downloads firmwareFile = some image)
    (h : Stage e e.versions e.slotInfo (ImageOpen metadata payload) t) :
    (SlotManager.stageFirmware firmwareFile).returns
      (fun i u ↦ (i = .download ∨ ∃ f, i = .slot e.target f) ∧
        Stage e e.versions e.slotInfo (ImageOpen metadata payload) u)
      (fun s u ↦ s = e.target ∧
        Stage e e.versions e.slotInfo (ImageOpen metadata payload) u) t := by
  have hD : ∀ (d : SlotDir) (image : Option Bytes), ImageOpen metadata payload d →
      ImageOpen metadata payload (d.withImage firmwareFile image) :=
    fun _ _ hd ↦ ⟨⟨hd.memory, hd.layout⟩, hd.incomplete⟩
  rw [SlotManager.stageFirmware]
  apply Persist.returns_bind (inactiveSlot_returns h)
  rintro _ u ⟨rfl, rfl⟩
  refine Persist.returns_bind (P := fun _ v ↦ v.downloads = u.downloads ∧
    Stage e e.versions e.slotInfo (ImageOpen metadata payload) v) ?_ ?_
  · rw [SlotManager.unlinkImage, Persist.returns_reads_bind]
    cases (u.slots e.target).images firmwareFile with
    | none => exact (Persist.returns_pure _).mpr ⟨rfl, h⟩
    | some _ =>
        refine (Persist.returns_zoom (u.setSlot_self e.target)).mpr ?_
        rw [Persist.returns_write]
        have h' := h.setSlot (hD _ none h.target)
        exact ⟨⟨Or.inr ⟨_, rfl⟩, h'⟩, rfl, h'⟩
  rintro _ v ⟨hv, hstage⟩
  refine Persist.returns_bind (P := fun _ x ↦
    Stage e e.versions e.slotInfo (ImageOpen metadata payload) x) ?_ ?_
  · rw [SlotManager.moveDownload, Persist.returns_reads_bind, hv, hdownload]
    rw [Persist.returns_write]
    have h' := hstage.setSlot (hD _ (some image) hstage.target)
    have h'' : Stage e e.versions e.slotInfo (ImageOpen metadata payload)
        { v.setSlot e.target ((v.slots e.target).withImage firmwareFile (some image)) with
          downloads := Function.update v.downloads firmwareFile none } :=
      ⟨h'.versions, h'.slotState, h'.others, h'.target⟩
    exact ⟨⟨Or.inl rfl, h''⟩, h''⟩
  intro _ x hx
  exact (Persist.returns_pure _).mpr ⟨rfl, hx⟩

theorem markImagePending_observes {image : Bytes} (he : e.Sound)
    (hdownload : t.downloads firmwareFile = some image)
    (h : Stage e e.versions e.slotInfo (ImageOpen metadata payload) t) :
    (markImagePending ecuName metadata e.target firmwareFile targetVersion).observes
      seeTransition [.staged] (StagingWrite e metadata payload firmwareFile targetVersion)
      (fun s u ↦ s = e.target ∧
        Stage e e.versions (stagedInfo e firmwareFile targetVersion) (ImageOpen metadata payload) u)
      t := by
  have hopened : ∀ {u}, Stage e e.versions e.slotInfo (ImageOpen metadata payload) u →
      Stage e e.versions e.slotInfo (Flashing (e.slots e.target)) u :=
    fun hu ↦ hu.mono fun _ hd ↦ hd.flashing
  have hcontrol : ∀ (d : SlotDir) control, ImageOpen metadata payload d →
      ImageOpen metadata payload { d with control := control } :=
    fun _ _ hd ↦ ⟨⟨hd.memory, hd.layout⟩, hd.incomplete⟩
  rw [markImagePending, ← List.nil_append [_]]
  have hfirmware := stageFirmware_returns hdownload h
  refine Persist.observes_bind (Persist.observes_mono (Persist.observes_of_returns hfirmware
    ?unseen) ?crash fun _ _ ↦ id) ?_
  case unseen =>
    rintro i u ⟨rfl | ⟨f, rfl⟩, -⟩ <;> rfl
  case crash =>
    rintro i u ⟨hi, hu⟩
    refine ⟨?_, Or.inl (hopened hu)⟩
    rintro s f rfl
    obtain hi | ⟨f', hi⟩ := hi
    · cases hi
    · injection hi
  rintro _ u ⟨rfl, hu⟩
  rw [← List.nil_append [_]]
  -- the control block of the target slot
  have hblock : ∀ fields, ((flashFor metadata).writeControlBlock fields).returns
      (fun _ ↦ ImageOpen metadata payload) (fun _ ↦ ImageOpen metadata payload)
      (u.slots e.target) := by
    intro fields
    simp only [writeControlBlock, readControlBlock, Persist.returns_reads_bind,
      Persist.returns_write]
    exact ⟨hcontrol _ _ hu.target, hcontrol _ _ hu.target⟩
  refine Persist.observes_bind (Persist.observes_mono (Persist.observes_of_returns
    (hu.inSlot (hblock _)) ?unseen) ?crash fun _ _ ↦ id) ?_
  case unseen =>
    rintro i v ⟨⟨f, rfl⟩, -⟩
    rfl
  case crash =>
    rintro i v ⟨⟨f, rfl⟩, _, hv⟩
    exact ⟨by rintro _ _ ⟨⟩; rfl, Or.inl (hopened hv)⟩
  rintro _ v ⟨hv, -⟩
  -- the record of the slot manager
  have hsound : v.Sound := hv.sound he fun _ hd ↦ hd.sound
  have hmark := SlotManager.markPending_performs e.target firmwareFile targetVersion hsound
  rw [SlotManager.openingWrites, if_neg (by simp [hv.slotState]), List.nil_append, hv.slotInfo]
    at hmark
  have hstaged : Stage e e.versions (stagedInfo e firmwareFile targetVersion)
      (ImageOpen metadata payload) (v.setSlotInfo (stagedInfo e firmwareFile targetVersion)) :=
    hv.setSlotInfo _
  have hupdate : ∀ {x}, SlotManager.ControlUpdate
      (v.setSlotInfo (stagedInfo e firmwareFile targetVersion)) e.target x →
      Stage e e.versions (stagedInfo e firmwareFile targetVersion) (ImageOpen metadata payload) x := by
    rintro x ⟨control, rfl⟩
    exact hstaged.setSlot (hcontrol _ control hstaged.target)
  rw [← List.append_nil [_]]
  refine Persist.observes_bind (hmark.observes _ ?unseen ?known ?crash) ?_
  case unseen =>
    rintro i x ⟨rfl, -⟩
    rfl
  case known =>
    simp only [List.mem_singleton, forall_eq]
    exact ⟨by rintro _ _ ⟨⟩, Or.inr (Or.inl hstaged)⟩
  case crash =>
    rintro i x ⟨rfl, hx⟩
    exact ⟨by rintro _ _ ⟨⟩; rfl, Or.inr (Or.inl (hupdate hx))⟩
  intro _ x hx
  exact ⟨(Persist.returns_pure _).mpr ⟨rfl, hupdate hx⟩, rfl⟩

theorem stage_opened (he : e.Sound) :
    Stage e e.versions e.slotInfo (Flashing (e.slots e.target)) (e.setSlotInfo e.slotInfo) :=
  ⟨rfl, rfl, fun _ _ ↦ rfl, he _, Or.inl rfl⟩

theorem stagingWrite_opening (he : e.Sound) :
    ∀ w ∈ SlotManager.openingWrites e,
      StagingWrite e metadata payload firmwareFile targetVersion w.1 w.2 := by
  intro w hw
  rw [SlotManager.openingWrites] at hw
  split at hw
  · obtain rfl := List.mem_singleton.mp hw
    exact ⟨by rintro _ _ ⟨⟩, Or.inl (stage_opened he)⟩
  · cases hw

theorem programTarget_returns (he : e.Sound) (hdesc : Describes metadata payload) :
    (inSlot e.target (programImage metadata payload firmwareFile targetVersion)).returns
      (fun i u ↦ (∃ f, i = .slot e.target f) ∧
        StagingWrite e metadata payload firmwareFile targetVersion i u)
      (fun _ u ↦ Stage e e.versions e.slotInfo (ImageOpen metadata payload) u ∧
        u.downloads = e.downloads) (e.setSlotInfo e.slotInfo) := by
  have hprogram := programImage_returns firmwareFile targetVersion (he e.target) hdesc.size
  refine Persist.returns_mono ((stage_opened he).inSlot hprogram) ?_ fun _ _ ↦ id
  rintro i u ⟨⟨f, rfl⟩, _, hu⟩
  exact ⟨⟨f, rfl⟩, by rintro _ _ ⟨⟩; rfl, Or.inl hu⟩

/-- A staged image: the records agree on it, the journal is closed. -/
abbrev Staged (e : EcuStore) (metadata : FirmwareImageMetadata) (payload : Bytes)
    (firmwareFile : FirmwareFile) (targetVersion normalized : String) (t : EcuStore) : Prop :=
  Stage e (e.versions.pend normalized (some e.target)) (stagedInfo e firmwareFile targetVersion)
    (fun d ↦ ImageIn metadata payload d ∧ d.incomplete = false) t

theorem stageImage_observes {image : Bytes} {normalized : String} (ecuName : String) (he : e.Sound)
    (hdesc : Describes metadata payload) (hdownload : e.downloads firmwareFile = some image)
    (hversion : normalizeVersion targetVersion = .ok normalized) :
    (stageImage ecuName metadata payload firmwareFile targetVersion).observes seeTransition
      ((SlotManager.openingWrites e).filterMap (fun w ↦ seeTransition w.1 w.2) ++ [.staged])
      (StagingWrite e metadata payload firmwareFile targetVersion)
      (fun _ u ↦ Staged e metadata payload firmwareFile targetVersion normalized u) e := by
  rw [stageImage]
  refine Persist.observes_bind (inactiveSlot_performs.observes _ (fun _ _ ↦ False.elim)
    (stagingWrite_opening he) fun _ _ ↦ False.elim) ?_
  rintro _ _ ⟨rfl, rfl⟩
  rw [← List.nil_append [_]]
  refine Persist.observes_bind (Persist.observes_mono (Persist.observes_of_returns
    (programTarget_returns he hdesc) ?unseen) (fun _ _ h ↦ h.2) fun _ _ ↦ id) ?_
  case unseen =>
    rintro i u ⟨⟨f, rfl⟩, -⟩
    rfl
  rintro _ u ⟨hu, hdown⟩
  rw [← List.append_nil [_]]
  refine Persist.observes_bind (markImagePending_observes he (hdown ▸ hdownload) hu) ?_
  rintro _ v ⟨rfl, hv⟩
  rw [← List.append_nil []]
  have hpend := VersionManager.setPendingVersion_performs e.target hversion (e := v)
  have hpended : Stage e (e.versions.pend normalized (some e.target))
      (stagedInfo e firmwareFile targetVersion) (ImageOpen metadata payload)
      (v.setVersions (v.versions.pend normalized (some e.target))) := by
    rw [hv.versions]
    exact hv.setVersions _
  refine Persist.observes_bind (hpend.observes _ (fun _ _ ↦ False.elim) ?known
    fun _ _ ↦ False.elim) ?_
  case known =>
    simp only [List.mem_singleton, forall_eq]
    exact ⟨by rintro _ _ ⟨⟩, Or.inr (Or.inr ⟨_, hversion, hpended.mono fun _ hd ↦ hd.toHolds⟩)⟩
  rintro _ _ rfl
  have hverify := verifyImage_returns e.target targetVersion
    hdesc.size hdesc.sha256 hpended.target
  refine Persist.observes_mono (Persist.observes_of_returns (hpended.inSlot hverify) ?unseen)
    ?crash fun _ _ h ↦ h.1
  case unseen =>
    rintro i x ⟨⟨f, rfl⟩, -⟩
    rfl
  case crash =>
    rintro i x ⟨⟨f, rfl⟩, _, hx⟩
    exact ⟨by rintro _ _ ⟨⟩; rfl, Or.inr (Or.inr ⟨_, hversion, hx⟩)⟩

/-- A version that cannot be normalized stops the installation behind `mark_pending`. -/
theorem stageImage_raises {image : Bytes} {err : PyError} (ecuName : String) (he : e.Sound)
    (hdesc : Describes metadata payload) (hdownload : e.downloads firmwareFile = some image)
    (hversion : normalizeVersion targetVersion = .error err) :
    (stageImage ecuName metadata payload firmwareFile targetVersion).wp
      (StagingWrite e metadata payload firmwareFile targetVersion)
      (fun r u ↦ r = .error err ∧ Stage e e.versions (stagedInfo e firmwareFile targetVersion)
        (ImageOpen metadata payload) u) e := by
  rw [stageImage]
  refine Persist.wp_bind_of_returns ((inactiveSlot_performs.observes seeTransition
    (fun _ _ ↦ False.elim) (stagingWrite_opening he) fun _ _ ↦ False.elim).1) ?_
  rintro _ _ ⟨rfl, rfl⟩
  refine Persist.wp_bind_of_returns (Persist.returns_mono (programTarget_returns he hdesc)
    (fun _ _ h ↦ h.2) fun _ _ ↦ id) ?_
  rintro _ u ⟨hu, hdown⟩
  refine Persist.wp_bind_of_returns (markImagePending_observes he (hdown ▸ hdownload) hu).1 ?_
  rintro _ v ⟨rfl, hv⟩
  simp only [VersionManager.setPendingVersion, hversion, Persist.wp_bind, Persist.wp_ofExcept]
  exact ⟨trivial, hv⟩

/-! ## The whole installation -/

/-- Only the legacy install directory differs. -/
def Legacy (e t : EcuStore) : Prop := ∃ installed, t = { e with installed := installed }

theorem Legacy.quiet (h : Legacy e t) : e.Quiet t := by
  obtain ⟨installed, rfl⟩ := h
  exact ⟨rfl, rfl, fun _ ↦ .refl _⟩

theorem removeLegacyInstall_returns (firmwareFile : FirmwareFile) :
    (removeLegacyInstall firmwareFile).returns (fun i t ↦ i = .installed ∧ Legacy e t)
      (fun _ t ↦ Legacy e t) e := by
  rw [removeLegacyInstall, Persist.returns_reads_bind]
  cases e.installed firmwareFile with
  | none => exact (Persist.returns_pure _).mpr ⟨e.installed, rfl⟩
  | some _ => exact (Persist.returns_write _ _).mpr ⟨⟨rfl, _, rfl⟩, _, rfl⟩

theorem readDownload_returns {image : Bytes} {C : EcuFile → EcuStore → Prop}
    (h : e.downloads firmwareFile = some image) :
    (readDownload firmwareFile).returns C (fun r t ↦ r = image ∧ t = e) e := by
  rw [readDownload, Persist.returns_reads_bind, h, Persist.returns_pure]
  exact ⟨rfl, rfl⟩

/-- The installer goes beyond its checks on the download. -/
def Accepts (e : EcuStore) (firmwareFile : FirmwareFile) (metadata : FirmwareImageMetadata)
    (payload : Bytes) : Prop :=
  ∃ image, e.downloads firmwareFile = some image ∧
    extractFirmwarePayload image = .ok (metadata, payload)

/-- The checks on the download, in front of whatever follows them. -/
theorem checked_wp {α : Type} {k : FirmwareImageMetadata → Bytes → EcuM α}
    {C : EcuFile → EcuStore → Prop} {Q : Except PyError α → EcuStore → Prop}
    (hlegacy : ∀ u, Legacy e u → C .installed u)
    (hrefused : ∀ err u, (∀ metadata payload, ¬Accepts e firmwareFile metadata payload) →
      Legacy e u → Q (.error err) u)
    (haccepted : ∀ metadata payload u, Accepts e firmwareFile metadata payload → Legacy e u →
      (k metadata payload).wp C Q u) :
    (do
      removeLegacyInstall firmwareFile
      let image ← readDownload firmwareFile
      let (metadata, payload) ← Persist.ofExcept (extractFirmwarePayload image)
      k metadata payload).wp C Q e := by
  refine Persist.wp_bind_of_returns (Persist.returns_mono
    (removeLegacyInstall_returns firmwareFile)
    (by rintro i u ⟨rfl, hu⟩; exact hlegacy u hu) fun _ _ ↦ id) ?_
  intro _ u hu
  have hdown : u.downloads = e.downloads := by
    obtain ⟨installed, rfl⟩ := hu
    rfl
  cases himage : e.downloads firmwareFile with
  | none =>
      rw [Persist.wp_bind, readDownload, Persist.wp_bind, Persist.wp_reads, hdown, himage]
      refine (Persist.wp_raise _).mpr (hrefused _ u ?_ hu)
      rintro metadata payload ⟨image, hd, -⟩
      rw [himage] at hd
      cases hd
  | some image =>
      refine Persist.wp_bind_of_returns (readDownload_returns (hdown ▸ himage)) ?_
      rintro r t ⟨hr, ht⟩
      rw [hr, ht, Persist.wp_bind, Persist.wp_ofExcept]
      cases hextract : extractFirmwarePayload image with
      | error err =>
          refine hrefused err _ ?_ hu
          rintro metadata payload ⟨image', hd, hok⟩
          rw [himage] at hd
          obtain rfl := Option.some.inj hd
          rw [hextract] at hok
          cases hok
      | ok parts => exact haccepted parts.1 parts.2 _ ⟨image, himage, hextract⟩ hu

theorem install_wp {C : EcuFile → EcuStore → Prop} {Q : Except PyError Bool → EcuStore → Prop}
    (hlegacy : ∀ u, Legacy e u → C .installed u)
    (hrefused : ∀ err u, (∀ metadata payload, ¬Accepts e firmwareFile metadata payload) →
      Legacy e u → Q (.error err) u)
    (haccepted : ∀ metadata payload u, Accepts e firmwareFile metadata payload → Legacy e u →
      (do
        stageImage ecuName metadata payload firmwareFile targetVersion
        let _ ← RebootManager.reboot
        return true).wp C Q u) :
    (install ecuName firmwareFile targetVersion).wp C Q e :=
  checked_wp
    (k := fun metadata payload ↦ do
      stageImage ecuName metadata payload firmwareFile targetVersion
      let _ ← RebootManager.reboot
      return true)
    hlegacy hrefused haccepted

end FirmwareInstaller

end VehicleOta.Ecu
