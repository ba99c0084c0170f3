import VehicleOta.Ecu.FlashSpec

/-!
# What the managers write

Each method of the two managers writes its record once.  The journal and control block
updates that follow are quiet: they change no record and no flash content, and they leave
no journal incomplete that was not.
-/

namespace VehicleOta.Ecu

open CrashLogic FlashMemoryEmulator

/-! ## Quiet writes -/

structure SlotDir.Quiet (d t : SlotDir) : Prop where
  memory : t.memory = d.memory
  layout : t.layout = d.layout
  journal : d.layout = none → t.journal = d.journal
  incomplete : t.incomplete = true → d.incomplete = true

namespace SlotDir.Quiet

variable {d t u : SlotDir}

theorem refl (d : SlotDir) : d.Quiet d := ⟨rfl, rfl, fun _ ↦ rfl, id⟩

theorem trans (h : d.Quiet t) (h' : t.Quiet u) : d.Quiet u where
  memory := h'.memory.trans h.memory
  layout := h'.layout.trans h.layout
  journal := fun hd ↦ (h'.journal (h.layout.trans hd)).trans (h.journal hd)
  incomplete := fun hu ↦ h.incomplete (h'.incomplete hu)

theorem sound (h : d.Quiet t) (hd : d.Sound) : t.Sound := by
  refine ⟨fun l hl ↦ hd.geometry l (h.layout ▸ hl), ?_⟩
  intro ht
  have hlayout : d.layout = none := h.layout ▸ ht
  rw [h.journal hlayout, hd.journal hlayout]

end SlotDir.Quiet

namespace EcuStore

/-- Every slot directory is sound. -/
def Sound (e : EcuStore) : Prop := ∀ s, (e.slots s).Sound

structure Quiet (e t : EcuStore) : Prop where
  version : t.version = e.version
  slotState : t.slotState = e.slotState
  slots : ∀ s, (e.slots s).Quiet (t.slots s)

namespace Quiet

variable {e t u : EcuStore}

theorem refl (e : EcuStore) : e.Quiet e := ⟨rfl, rfl, fun _ ↦ .refl _⟩

theorem trans (h : e.Quiet t) (h' : t.Quiet u) : e.Quiet u where
  version := h'.version.trans h.version
  slotState := h'.slotState.trans h.slotState
  slots := fun s ↦ (h.slots s).trans (h'.slots s)

theorem versions (h : e.Quiet t) : t.versions = e.versions := by
  rw [EcuStore.versions, h.version, EcuStore.versions]

theorem slotInfo (h : e.Quiet t) : t.slotInfo = e.slotInfo := by
  rw [EcuStore.slotInfo, h.slotState, EcuStore.slotInfo]

theorem sound (h : e.Quiet t) (he : e.Sound) : t.Sound := fun s ↦ (h.slots s).sound (he s)

theorem memory (h : e.Quiet t) (s : Slot) : (t.slots s).memory = (e.slots s).memory :=
  (h.slots s).memory

theorem incomplete (h : e.Quiet t) {s : Slot} (hs : (e.slots s).incomplete = false) :
    (t.slots s).incomplete = false := by
  cases ht : (t.slots s).incomplete with
  | false => rfl
  | true => rw [(h.slots s).incomplete ht] at hs; exact hs

theorem setSlot {s : Slot} {d : SlotDir} (h : (e.slots s).Quiet d) : e.Quiet (e.setSlot s d) := by
  refine ⟨rfl, rfl, fun s' ↦ ?_⟩
  by_cases hs : s' = s
  · subst hs
    rwa [slots_setSlot_self]
  · rw [slots_setSlot_of_ne e d hs]
    exact .refl _

end Quiet

/-- A write of a journal or of a control block behind the store `e`. -/
def QuietWrite (e : EcuStore) (i : EcuFile) (t : EcuStore) : Prop :=
  (∃ s, i = .slot s .journal ∨ i = .slot s .control) ∧ e.Quiet t

theorem QuietWrite.trans {e t u : EcuStore} {i : EcuFile} (h : e.Quiet t) (h' : t.QuietWrite i u) :
    e.QuietWrite i u :=
  ⟨h'.1, h.trans h'.2⟩

@[simp] theorem sound_setVersions {e : EcuStore} {v : VersionState} :
    (e.setVersions v).Sound ↔ e.Sound := Iff.rfl

@[simp] theorem sound_setSlotInfo {e : EcuStore} {w : SlotState} :
    (e.setSlotInfo w).Sound ↔ e.Sound := Iff.rfl

@[simp] theorem slotInfo_of_some {e : EcuStore} {w : SlotState} (h : e.slotState = some w) :
    e.slotInfo = w := by
  simp [slotInfo, h]

theorem setSlotInfo_slotInfo {e : EcuStore} (h : e.slotState ≠ none) :
    e.setSlotInfo e.slotInfo = e := by
  obtain ⟨w, hw⟩ := Option.ne_none_iff_exists'.mp h
  cases e
  simp_all [setSlotInfo, slotInfo]

/-- A pending slot has been written to the file. -/
theorem slotState_ne_none {e : EcuStore} {p : Slot} (h : e.slotInfo.pendingSlot = some p) :
    e.slotState ≠ none := by
  intro hnone
  simp [slotInfo, hnone] at h

end EcuStore

namespace SlotManager

variable {e : EcuStore}

theorem flashOf_returns (slot : Slot) (he : e.Sound) {C : EcuFile → EcuStore → Prop} :
    (flashOf slot).returns C
      (fun r t ↦ t = e ∧ (r ≠ none → (e.slots slot).layout ≠ none)) e := by
  rw [flashOf, Persist.returns_reads_bind]
  cases hl : (e.slots slot).layout with
  | none => simp
  | some l =>
      obtain ⟨g, hg⟩ := (he slot).geometry l hl
      simp [hg]

/-- Only the control block of `slot` differs. -/
def ControlUpdate (e : EcuStore) (slot : Slot) (t : EcuStore) : Prop :=
  ∃ control, t = e.setSlot slot { e.slots slot with control := control }

theorem updateControlBlock_control (slot : Slot) (updates : List (String × Field))
    (he : e.Sound) :
    (updateControlBlock slot updates).returns
      (fun i t ↦ i = .slot slot .control ∧ ControlUpdate e slot t)
      (fun _ t ↦ ControlUpdate e slot t) e := by
  rw [updateControlBlock]
  apply Persist.returns_bind (flashOf_returns slot he)
  rintro (_ | flash) t ⟨rfl, -⟩
  · exact (Persist.returns_pure _).mpr ⟨(t.slots slot).control, (t.setSlot_self slot).symm⟩
  · refine (Persist.returns_zoom (t.setSlot_self slot)).mpr ?_
    simp only [writeControlBlock, readControlBlock, Persist.returns_reads_bind,
      Persist.returns_write]
    exact ⟨⟨trivial, _, rfl⟩, _, rfl⟩

theorem ControlUpdate.quiet {slot : Slot} {t : EcuStore} (h : ControlUpdate e slot t) :
    e.Quiet t := by
  obtain ⟨control, rfl⟩ := h
  exact .setSlot ⟨rfl, rfl, fun _ ↦ rfl, id⟩

theorem updateControlBlock_returns (slot : Slot) (updates : List (String × Field))
    (he : e.Sound) :
    (updateControlBlock slot updates).returns e.QuietWrite (fun _ t ↦ e.Quiet t) e :=
  Persist.returns_mono (updateControlBlock_control slot updates he)
    (fun _ _ h ↦ ⟨⟨slot, Or.inr h.1⟩, h.2.quiet⟩) fun _ _ h ↦ h.quiet

theorem updateJournal_returns (slot : Slot) {state : JournalState}
    (updates : List (String × Field)) (hstate : state ∉ incompleteJournalStates) (he : e.Sound) :
    (updateJournal slot state updates).returns e.QuietWrite (fun _ t ↦ e.Quiet t) e := by
  rw [updateJournal]
  apply Persist.returns_bind (flashOf_returns slot he)
  rintro (_ | flash) t ⟨rfl, hlayout⟩
  · simpa using EcuStore.Quiet.refl t
  · refine (Persist.returns_zoom (t.setSlot_self slot)).mpr ?_
    simp only [FlashMemoryEmulator.updateJournal, Persist.returns_write]
    have hquiet : t.Quiet (t.setSlot slot { t.slots slot with
        journal := some ⟨state, flash.baseAddress, flash.partitionSize, updates⟩ }) := by
      refine .setSlot ⟨rfl, rfl, fun h ↦ absurd h (hlayout (by simp)), ?_⟩
      simp [SlotDir.incomplete, hstate]
    exact ⟨⟨⟨slot, Or.inl rfl⟩, hquiet⟩, hquiet⟩

theorem setActiveSlotControlBlocks_returns (activeSlot : Slot) (confirmed : Bool) (he : e.Sound) :
    (setActiveSlotControlBlocks activeSlot confirmed).returns e.QuietWrite
      (fun _ t ↦ e.Quiet t) e := by
  refine Persist.returns_forEach (fun _ t ↦ e.Quiet t) (.refl e) ?_
  intro _ slot _ t _ ht
  exact Persist.returns_mono (updateControlBlock_returns slot _ (ht.sound he))
    (fun _ _ hw ↦ hw.trans ht) fun _ _ hu ↦ ht.trans hu

/-! ## The methods of the slot manager -/

/-- What the first access to `slot_state.json` writes. -/
def openingWrites (e : EcuStore) : List (Write EcuFile EcuStore) :=
  if e.slotState = none then [(.slotState, e.setSlotInfo e.slotInfo)] else []

theorem openingWrites_of_pending {p : Slot} (h : e.slotInfo.pendingSlot = some p) :
    openingWrites e = [] :=
  if_neg (EcuStore.slotState_ne_none h)

theorem loadState_performs :
    loadState.performs (openingWrites e) (fun _ _ ↦ False)
      (fun state t ↦ state = e.slotInfo ∧ t = e.setSlotInfo e.slotInfo) e := by
  rw [loadState, Persist.performs_reads_bind, openingWrites]
  cases hs : e.slotState with
  | none =>
      have hinfo : e.slotInfo = {} := by simp [EcuStore.slotInfo, hs]
      rw [if_pos rfl, hinfo]
      exact Persist.performs_write_bind _ _ (Persist.performs_pure _ ⟨rfl, rfl⟩)
  | some state =>
      have hself := EcuStore.setSlotInfo_slotInfo (e := e) (by simp [hs])
      rw [if_neg (by simp), hself]
      exact Persist.performs_pure _ ⟨by simp [hs], rfl⟩

/-- Saving a new record over the opened one. -/
theorem saveState_performs {α : Type} {rest : EcuM α} {state : SlotState}
    {C : EcuFile → EcuStore → Prop} {P : α → EcuStore → Prop}
    (h : rest.returns C P (e.setSlotInfo state)) :
    (saveState state >>= fun _ ↦ rest).performs [(.slotState, e.setSlotInfo state)] C P
      (e.setSlotInfo e.slotInfo) :=
  Persist.performs_write_bind _ _ (Persist.performs_nil.mpr h)

theorem markPending_performs (slot : Slot) (firmwareFile : FirmwareFile) (version : String)
    (he : e.Sound) :
    (markPending slot firmwareFile version).performs
      (openingWrites e ++
        [(.slotState, e.setSlotInfo (e.slotInfo.markPending slot firmwareFile version))])
      (fun i t ↦ i = .slot slot .control ∧
        ControlUpdate (e.setSlotInfo (e.slotInfo.markPending slot firmwareFile version)) slot t)
      (fun _ t ↦
        ControlUpdate (e.setSlotInfo (e.slotInfo.markPending slot firmwareFile version)) slot t)
      e := by
  apply Persist.performs_bind loadState_performs
  rintro _ _ ⟨rfl, rfl⟩
  exact saveState_performs (updateControlBlock_control slot _ (EcuStore.sound_setSlotInfo.mpr he))

theorem activatePending_none (h : e.slotInfo.pendingSlot = none) :
    activatePending.performs (openingWrites e) (fun _ _ ↦ False)
      (fun r t ↦ r = none ∧ t = e.setSlotInfo e.slotInfo) e := by
  rw [← List.append_nil (openingWrites e)]
  apply Persist.performs_bind loadState_performs
  rintro _ _ ⟨rfl, rfl⟩
  simp only [h]
  exact Persist.performs_pure _ ⟨rfl, rfl⟩

theorem activatePending_some {p : Slot} (h : e.slotInfo.pendingSlot = some p) (he : e.Sound) :
    activatePending.performs [(.slotState, e.setSlotInfo (e.slotInfo.activatePending p))]
      (e.setSlotInfo (e.slotInfo.activatePending p)).QuietWrite
      (fun r t ↦ r = some p ∧ (e.setSlotInfo (e.slotInfo.activatePending p)).Quiet t) e := by
  have hload := loadState_performs (e := e)
  rw [openingWrites_of_pending h] at hload
  apply Persist.performs_bind hload
  rintro _ _ ⟨rfl, rfl⟩
  simp only [h]
  apply saveState_performs
  apply Persist.returns_bind
    (updateJournal_returns p _ (by decide) (EcuStore.sound_setSlotInfo.mpr he))
  intro _ t ht
  apply Persist.returns_bind (Persist.returns_mono
    (setActiveSlotControlBlocks_returns p false (ht.sound he)) (fun _ _ hw ↦ hw.trans ht)
    fun _ _ hu ↦ ht.trans hu)
  intro _ u hu
  simpa using hu

theorem commitPending_performs (he : e.Sound) :
    commitPending.performs
      (openingWrites e ++ [(.slotState, e.setSlotInfo e.slotInfo.commitPending)])
      (e.setSlotInfo e.slotInfo.commitPending).QuietWrite
      (fun _ t ↦ (e.setSlotInfo e.slotInfo.commitPending).Quiet t) e := by
  apply Persist.performs_bind loadState_performs
  rintro _ _ ⟨rfl, rfl⟩
  apply saveState_performs
  apply Persist.returns_bind
    (updateJournal_returns _ _ (by decide) (EcuStore.sound_setSlotInfo.mpr he))
  intro _ t ht
  exact Persist.returns_mono (setActiveSlotControlBlocks_returns _ _ (ht.sound he))
    (fun _ _ hw ↦ hw.trans ht) fun _ _ hu ↦ ht.trans hu

theorem rollbackPending_performs (reason : String) (he : e.Sound) :
    (rollbackPending reason).performs
      (openingWrites e ++ [(.slotState, e.setSlotInfo (e.slotInfo.rollbackPending reason))])
      (e.setSlotInfo (e.slotInfo.rollbackPending reason)).QuietWrite
      (fun _ t ↦ (e.setSlotInfo (e.slotInfo.rollbackPending reason)).Quiet t) e := by
  apply Persist.performs_bind loadState_performs
  rintro _ _ ⟨rfl, rfl⟩
  apply saveState_performs
  apply Persist.returns_bind
    (updateJournal_returns _ _ (by decide) (EcuStore.sound_setSlotInfo.mpr he))
  intro _ t ht
  apply Persist.returns_bind (Persist.returns_mono
    (updateControlBlock_returns _ _ (ht.sound he)) (fun _ _ hw ↦ hw.trans ht)
    fun _ _ hu ↦ ht.trans hu)
  intro _ u hu
  exact Persist.returns_mono (setActiveSlotControlBlocks_returns _ _ (hu.sound he))
    (fun _ _ hw ↦ hw.trans hu) fun _ _ hv ↦ hu.trans hv

@[simp] theorem openingWrites_setSlotInfo (state : SlotState) :
    openingWrites (e.setSlotInfo state) = [] :=
  if_neg (by simp [EcuStore.setSlotInfo])

theorem pendingJournalRequiresRecovery_none (h : e.slotInfo.pendingSlot = none) :
    pendingJournalRequiresRecovery.performs (openingWrites e) (fun _ _ ↦ False)
      (fun r t ↦ r = false ∧ t = e.setSlotInfo e.slotInfo) e := by
  rw [← List.append_nil (openingWrites e)]
  apply Persist.performs_bind loadState_performs
  rintro _ _ ⟨rfl, rfl⟩
  simp only [h]
  exact Persist.performs_pure _ ⟨rfl, rfl⟩

theorem pendingJournalRequiresRecovery_some {p : Slot} (h : e.slotInfo.pendingSlot = some p) :
    pendingJournalRequiresRecovery.performs [] (fun _ _ ↦ False)
      (fun r t ↦ r = (e.slots p).incomplete ∧ t = e) e := by
  have hload := loadState_performs (e := e)
  rw [openingWrites_of_pending h, EcuStore.setSlotInfo_slotInfo (EcuStore.slotState_ne_none h)]
    at hload
  apply Persist.performs_bind hload
  rintro _ _ ⟨rfl, rfl⟩
  simp only [h]
  exact Persist.performs_nil.mpr ((Persist.returns_reads _).mpr ⟨rfl, rfl⟩)

theorem shouldRollbackPending_some {p : Slot} (h : e.slotInfo.pendingSlot = some p) :
    shouldRollbackPending.performs [] (fun _ _ ↦ False)
      (fun r t ↦ r = decide (e.slotInfo.maxBootAttempts ≤ e.slotInfo.bootAttempts) ∧ t = e) e := by
  have hload := loadState_performs (e := e)
  rw [openingWrites_of_pending h, EcuStore.setSlotInfo_slotInfo (EcuStore.slotState_ne_none h)]
    at hload
  apply Persist.performs_bind hload
  rintro _ _ ⟨rfl, rfl⟩
  exact Persist.performs_pure _ ⟨by simp [h], rfl⟩

end SlotManager

namespace VersionManager

variable {e : EcuStore}

theorem setPendingVersion_performs {version normalized : String} (slot : Slot)
    (h : normalizeVersion version = .ok normalized) :
    (setPendingVersion version (some slot)).performs
      [(.version, e.setVersions (e.versions.pend normalized (some slot)))] (fun _ _ ↦ False)
      (fun _ t ↦ t = e.setVersions (e.versions.pend normalized (some slot))) e := by
  rw [setPendingVersion, h]
  exact ⟨[], rfl, by simp, _, rfl, rfl⟩

theorem confirmVersion_performs {version normalized : String}
    (h : normalizeVersion version = .ok normalized) :
    (confirmVersion version).performs
      [(.version, e.setVersions (e.versions.confirm normalized))] (fun _ _ ↦ False)
      (fun _ t ↦ t = e.setVersions (e.versions.confirm normalized)) e := by
  rw [confirmVersion, h]
  exact ⟨[], rfl, by simp, _, rfl, rfl⟩

theorem bootPendingVersion_performs (h : e.versions.pendingVersion ≠ "") :
    bootPendingVersion.performs [(.version, e.setVersions e.versions.bootPending)]
      (fun _ _ ↦ False) (fun _ t ↦ t = e.setVersions e.versions.bootPending) e := by
  rw [bootPendingVersion, load, Persist.performs_reads_bind, if_neg h]
  exact ⟨[], rfl, by simp, _, rfl, rfl⟩

theorem rollbackPendingVersion_performs (reason : String) :
    (rollbackPendingVersion reason).performs
      [(.version, e.setVersions (e.versions.rollbackPending reason))] (fun _ _ ↦ False)
      (fun _ t ↦ t = e.setVersions (e.versions.rollbackPending reason)) e :=
  ⟨[], rfl, by simp, _, rfl, rfl⟩

end VersionManager

/-! ## The operations on both records -/

section Operations

variable {e : EcuStore} {p : Slot}

/-- Both records after a rollback. -/
def EcuStore.rolledBack (e : EcuStore) (reason : String) : EcuStore :=
  (e.setVersions (e.versions.rollbackPending reason)).setSlotInfo
    (e.slotInfo.rollbackPending reason)

/-- Both records after a confirmation. -/
def EcuStore.confirmed (e : EcuStore) (normalized : String) : EcuStore :=
  (e.setVersions (e.versions.confirm normalized)).setSlotInfo e.slotInfo.commitPending

/-- Both records after the pending slot `p` has booted. -/
def EcuStore.booted (e : EcuStore) (p : Slot) : EcuStore :=
  (e.setVersions e.versions.bootPending).setSlotInfo (e.slotInfo.activatePending p)

theorem rollback_performs (reason : String) (he : e.Sound) :
    (RebootManager.rollback reason).performs
      ((.version, e.setVersions (e.versions.rollbackPending reason)) ::
        (SlotManager.openingWrites (e.setVersions (e.versions.rollbackPending reason)) ++
          [(.slotState, e.rolledBack reason)]))
      (e.rolledBack reason).QuietWrite (fun _ t ↦ (e.rolledBack reason).Quiet t) e := by
  refine Persist.performs_bind (VersionManager.rollbackPendingVersion_performs reason) ?_
  rintro _ _ rfl
  exact SlotManager.rollbackPending_performs
    (e := e.setVersions (e.versions.rollbackPending reason)) reason he

theorem confirm_performs {actual normalized : String}
    (hv : normalizeVersion actual = .ok normalized) (he : e.Sound) :
    (PostInstallValidator.confirm actual).performs
      ((.version, e.setVersions (e.versions.confirm normalized)) ::
        (SlotManager.openingWrites (e.setVersions (e.versions.confirm normalized)) ++
          [(.slotState, e.confirmed normalized)]))
      (e.confirmed normalized).QuietWrite (fun _ t ↦ (e.confirmed normalized).Quiet t) e := by
  refine Persist.performs_bind (VersionManager.confirmVersion_performs hv) ?_
  rintro _ _ rfl
  exact SlotManager.commitPending_performs
    (e := e.setVersions (e.versions.confirm normalized)) he

theorem openingWrites_setVersions {v : VersionState} (h : e.slotInfo.pendingSlot = some p) :
    SlotManager.openingWrites (e.setVersions v) = [] :=
  SlotManager.openingWrites_of_pending (by simpa using h)

theorem rollback_performs_pending (reason : String) (h : e.slotInfo.pendingSlot = some p)
    (he : e.Sound) :
    (RebootManager.rollback reason).performs
      [(.version, e.setVersions (e.versions.rollbackPending reason)),
        (.slotState, e.rolledBack reason)]
      (e.rolledBack reason).QuietWrite (fun _ t ↦ (e.rolledBack reason).Quiet t) e := by
  have h' := rollback_performs reason he
  rwa [openingWrites_setVersions h] at h'

theorem confirm_performs_pending {actual normalized : String}
    (hv : normalizeVersion actual = .ok normalized) (h : e.slotInfo.pendingSlot = some p)
    (he : e.Sound) :
    (PostInstallValidator.confirm actual).performs
      [(.version, e.setVersions (e.versions.confirm normalized)),
        (.slotState, e.confirmed normalized)]
      (e.confirmed normalized).QuietWrite (fun _ t ↦ (e.confirmed normalized).Quiet t) e := by
  have h' := confirm_performs hv he
  rwa [openingWrites_setVersions h] at h'

theorem hasPendingCommit_performs :
    VersionManager.hasPendingCommit.performs [] (fun _ _ ↦ False)
      (fun r t ↦ r = e.versions.pendingCommit ∧ t = e) e :=
  Persist.performs_nil.mpr ((Persist.returns_reads_bind _).mpr (by simp))

/-- An interrupted installation is rolled back whatever `version.json` says. -/
theorem reboot_recovers (h : e.slotInfo.pendingSlot = some p)
    (hinc : (e.slots p).incomplete = true) (he : e.Sound) :
    RebootManager.reboot.performs
      [(.version, e.setVersions (e.versions.rollbackPending "INCOMPLETE_FLASH_JOURNAL")),
        (.slotState, e.rolledBack "INCOMPLETE_FLASH_JOURNAL")]
      (e.rolledBack "INCOMPLETE_FLASH_JOURNAL").QuietWrite
      (fun r t ↦ r = none ∧ (e.rolledBack "INCOMPLETE_FLASH_JOURNAL").Quiet t) e := by
  rw [← List.nil_append [_, _]]
  apply Persist.performs_bind (SlotManager.pendingJournalRequiresRecovery_some h)
  rintro _ t ⟨rfl, rfl⟩
  rw [if_pos hinc]
  apply Persist.performs_bind_returns (rollback_performs_pending _ h he)
  intro _ u hu
  simpa using hu

theorem attemptLimitExceeded_performs (h : e.slotInfo.pendingSlot = some p) :
    RebootManager.attemptLimitExceeded.performs [] (fun _ _ ↦ False)
      (fun r t ↦ r = (e.versions.pendingCommit &&
        decide (e.slotInfo.maxBootAttempts ≤ e.slotInfo.bootAttempts)) ∧ t = e) e := by
  rw [← List.nil_append []]
  apply Persist.performs_bind hasPendingCommit_performs
  rintro _ t ⟨rfl, rfl⟩
  cases hcommit : t.versions.pendingCommit with
  | false => exact Persist.performs_pure _ ⟨rfl, rfl⟩
  | true => simpa using SlotManager.shouldRollbackPending_some h

/-- The first two questions of `reboot` write nothing when a slot is pending. -/
theorem reboot_pending {ws : List (Write EcuFile EcuStore)} {C : EcuFile → EcuStore → Prop}
    {P : Option Slot → EcuStore → Prop} (h : e.slotInfo.pendingSlot = some p)
    (hinc : (e.slots p).incomplete = false)
    (hrest : (if e.versions.pendingCommit &&
          decide (e.slotInfo.maxBootAttempts ≤ e.slotInfo.bootAttempts) then do
        RebootManager.rollback "BOOT_ATTEMPT_LIMIT_EXCEEDED"
        return none
      else RebootManager.boot).performs ws C P e) :
    RebootManager.reboot.performs ws C P e := by
  rw [← List.nil_append ws]
  apply Persist.performs_bind (SlotManager.pendingJournalRequiresRecovery_some h)
  rintro _ t ⟨rfl, rfl⟩
  rw [if_neg (by simp [hinc]), ← List.nil_append ws]
  apply Persist.performs_bind (attemptLimitExceeded_performs h)
  rintro _ u ⟨rfl, rfl⟩
  exact hrest

theorem reboot_limit (h : e.slotInfo.pendingSlot = some p)
    (hinc : (e.slots p).incomplete = false) (hcommit : e.versions.pendingCommit = true)
    (hlimit : e.slotInfo.maxBootAttempts ≤ e.slotInfo.bootAttempts) (he : e.Sound) :
    RebootManager.reboot.performs
      [(.version, e.setVersions (e.versions.rollbackPending "BOOT_ATTEMPT_LIMIT_EXCEEDED")),
        (.slotState, e.rolledBack "BOOT_ATTEMPT_LIMIT_EXCEEDED")]
      (e.rolledBack "BOOT_ATTEMPT_LIMIT_EXCEEDED").QuietWrite
      (fun r t ↦ r = none ∧ (e.rolledBack "BOOT_ATTEMPT_LIMIT_EXCEEDED").Quiet t) e := by
  apply reboot_pending h hinc
  rw [if_pos (by simp [hcommit, hlimit])]
  apply Persist.performs_bind_returns (rollback_performs_pending _ h he)
  intro _ u hu
  simpa using hu

/-- A verified image that may still be tried is booted. -/
theorem reboot_boots (h : e.slotInfo.pendingSlot = some p)
    (hinc : (e.slots p).incomplete = false) (hcommit : e.versions.pendingCommit = true)
    (hversion : e.versions.pendingVersion ≠ "")
    (hlimit : e.slotInfo.bootAttempts < e.slotInfo.maxBootAttempts) (he : e.Sound) :
    RebootManager.reboot.performs
      [(.version, e.setVersions e.versions.bootPending), (.slotState, e.booted p)]
      (e.booted p).QuietWrite (fun r t ↦ r = some p ∧ (e.booted p).Quiet t) e := by
  apply reboot_pending h hinc
  rw [if_neg (by simp; omega), RebootManager.boot, ← List.nil_append [_, _]]
  apply Persist.performs_bind hasPendingCommit_performs
  rintro _ t ⟨rfl, rfl⟩
  rw [if_pos hcommit]
  apply Persist.performs_bind (VersionManager.bootPendingVersion_performs hversion)
  rintro _ _ rfl
  exact SlotManager.activatePending_some (e := t.setVersions t.versions.bootPending) h he

/-- Without a pending commit only `slot_state.json` follows a pending slot. -/
theorem reboot_uncommitted (h : e.slotInfo.pendingSlot = some p)
    (hinc : (e.slots p).incomplete = false) (hcommit : e.versions.pendingCommit = false)
    (he : e.Sound) :
    RebootManager.reboot.performs [(.slotState, e.setSlotInfo (e.slotInfo.activatePending p))]
      (e.setSlotInfo (e.slotInfo.activatePending p)).QuietWrite
      (fun r t ↦ r = some p ∧ (e.setSlotInfo (e.slotInfo.activatePending p)).Quiet t) e := by
  apply reboot_pending h hinc
  rw [if_neg (by simp [hcommit]), RebootManager.boot, ← List.nil_append [_]]
  apply Persist.performs_bind hasPendingCommit_performs
  rintro _ t ⟨rfl, rfl⟩
  rw [if_neg (by simp [hcommit])]
  exact SlotManager.activatePending_some h he

/-- With nothing pending a reboot changes no record. -/
theorem reboot_idle (h : e.slotInfo.pendingSlot = none) (hcommit : e.versions.pendingCommit = false) :
    RebootManager.reboot.performs (SlotManager.openingWrites e) (fun _ _ ↦ False)
      (fun r t ↦ r = none ∧ t = e.setSlotInfo e.slotInfo) e := by
  rw [← List.append_nil (SlotManager.openingWrites e)]
  apply Persist.performs_bind (SlotManager.pendingJournalRequiresRecovery_none h)
  rintro _ _ ⟨rfl, rfl⟩
  rw [if_neg (by simp)]
  have hread : VersionManager.hasPendingCommit.performs [] (fun _ _ ↦ False)
      (fun r t ↦ r = false ∧ t = e.setSlotInfo e.slotInfo) (e.setSlotInfo e.slotInfo) := by
    simpa [hcommit] using hasPendingCommit_performs (e := e.setSlotInfo e.slotInfo)
  rw [← List.nil_append [], RebootManager.attemptLimitExceeded]
  refine Persist.performs_bind (P := fun r t ↦ r = false ∧ t = e.setSlotInfo e.slotInfo) ?_ ?_
  · rw [← List.nil_append []]
    apply Persist.performs_bind hread
    rintro _ _ ⟨rfl, rfl⟩
    exact Persist.performs_pure _ ⟨rfl, rfl⟩
  rintro _ _ ⟨rfl, rfl⟩
  rw [if_neg (by simp), RebootManager.boot, ← List.nil_append []]
  apply Persist.performs_bind hread
  rintro _ _ ⟨rfl, rfl⟩
  rw [if_neg (by simp)]
  have hactivate := SlotManager.activatePending_none (e := e.setSlotInfo e.slotInfo) (by simpa using h)
  rw [SlotManager.openingWrites_setSlotInfo] at hactivate
  exact hactivate

end Operations

end VehicleOta.Ecu
