import VehicleOta.Crash.Invariant
import VehicleOta.Ecu.ConfirmedImage

/-!
# The rejected slot

`SlotManager.rollback_pending` rejects the slot that is active.  That is the pending slot
once it has booted; before its first boot it is the confirmed one.
-/

namespace VehicleOta.Ecu

open CrashLogic TrialBoot FlashMemoryEmulator FirmwareInstaller

/-! ## Control blocks, field by field -/

/-- The fields that every write of a control block adds. -/
def addressFields : List String := ["base_address", "partition_size"]

def SlotDir.field (d : SlotDir) (key : String) : Option Field := d.control.bind fun c ↦ c.get? key

theorem SlotDir.field_getD (d : SlotDir) (key : String) :
    (d.control.getD Dict.empty).get? key = d.field key := by
  rw [SlotDir.field]
  cases d.control <;> rfl

/-- Only the control blocks differ, by the fields given for each slot. -/
structure BlocksUpdated (fields : Slot → List (String × Field)) (e t : EcuStore) : Prop where
  quiet : e.Quiet t
  journal : ∀ s, (t.slots s).journal = (e.slots s).journal
  field : ∀ s, ∀ key ∉ addressFields,
    (t.slots s).field key = ((fields s).lookup key).or ((e.slots s).field key)

namespace BlocksUpdated

variable {fields fields' : Slot → List (String × Field)} {e t u : EcuStore}

theorem trans (h : BlocksUpdated fields e t) (h' : BlocksUpdated fields' t u) :
    BlocksUpdated (fun s ↦ fields' s ++ fields s) e u where
  quiet := h.quiet.trans h'.quiet
  journal := fun s ↦ (h'.journal s).trans (h.journal s)
  field := fun s key hkey ↦ by
    rw [h'.field s key hkey, h.field s key hkey, List.lookup_append, Option.or_assoc]

theorem congr (h : BlocksUpdated fields e t) (hfields : ∀ s, fields s = fields' s) :
    BlocksUpdated fields' e t :=
  (funext hfields : fields = fields') ▸ h

end BlocksUpdated

namespace SlotManager

variable {e t : EcuStore}

theorem writeControlBlock_fields (flash : FlashMemoryEmulator) {fields : List (String × Field)}
    (hfields : (fields.map Prod.fst).Nodup) (d : SlotDir) :
    (flash.writeControlBlock fields).returns (fun _ _ ↦ True)
      (fun _ t ↦ ∃ control, t = { d with control := some control } ∧
        ∀ key ∉ addressFields, control.get? key = (fields.lookup key).or (d.field key)) d := by
  simp only [writeControlBlock, readControlBlock, Persist.returns_reads_bind,
    Persist.returns_write]
  refine ⟨trivial, _, rfl, fun key hkey ↦ ?_⟩
  simp only [addressFields, List.mem_cons, List.not_mem_nil, or_false, not_or] at hkey
  rw [Dict.get?_setDefault_of_ne _ _ hkey.2, Dict.get?_setDefault_of_ne _ _ hkey.1,
    Dict.get?_update _ hfields, SlotDir.field_getD]

theorem flashOf_present (slot : Slot) (he : e.Sound) (hlayout : (e.slots slot).layout ≠ none) :
    (flashOf slot).returns (fun _ _ ↦ True) (fun r t ↦ (∃ flash, r = some flash) ∧ t = e) e := by
  obtain ⟨layout, hl⟩ := Option.ne_none_iff_exists'.mp hlayout
  obtain ⟨geometry, hg⟩ := (he slot).geometry layout hl
  rw [flashOf, Persist.returns_reads_bind, hl]
  simp only [hg]
  exact (Persist.returns_pure _).mpr ⟨⟨_, rfl⟩, rfl⟩

/-- With its layout present a slot has its control block updated. -/
theorem updateControlBlock_fields (slot : Slot) {fields : List (String × Field)}
    (hfields : (fields.map Prod.fst).Nodup) (he : e.Sound) (hlayout : (e.slots slot).layout ≠ none) :
    (updateControlBlock slot fields).returns (fun _ _ ↦ True)
      (fun _ t ↦ BlocksUpdated (fun s ↦ if s = slot then fields else []) e t) e := by
  apply Persist.returns_bind (flashOf_present slot he hlayout)
  rintro _ e ⟨⟨flash, rfl⟩, rfl⟩
  refine (Persist.returns_zoom (e.setSlot_self slot)).mpr ?_
  refine Persist.returns_mono (writeControlBlock_fields flash hfields (e.slots slot))
    (fun _ _ _ ↦ trivial) ?_
  rintro _ _ ⟨control, rfl, hcontrol⟩
  refine ⟨.setSlot ⟨rfl, rfl, fun _ ↦ rfl, id⟩, fun s ↦ ?_, fun s key hkey ↦ ?_⟩
  · by_cases hs : s = slot
    · rw [hs, EcuStore.slots_setSlot_self]
    · rw [EcuStore.slots_setSlot_of_ne _ _ hs]
  · by_cases hs : s = slot
    · rw [hs, EcuStore.slots_setSlot_self, if_pos rfl]
      exact hcontrol key hkey
    · rw [EcuStore.slots_setSlot_of_ne _ _ hs, if_neg hs]
      rfl

/-- What `_set_active_slot_control_blocks` writes into the block of a slot. -/
def activeFields (activeSlot : Slot) (confirmed : Bool) (slot : Slot) : List (String × Field) :=
  [("active", .flag (slot = activeSlot)),
    ("confirmed", .flag (if slot = activeSlot then confirmed else false))] ++
    if slot = activeSlot then [("bootable", .flag true)] else []

theorem nodup_activeFields (activeSlot : Slot) (confirmed : Bool) (slot : Slot) :
    ((activeFields activeSlot confirmed slot).map Prod.fst).Nodup := by
  rw [activeFields]
  split <;> simp

theorem setActiveSlotControlBlocks_fields (activeSlot : Slot) (confirmed : Bool) (he : e.Sound)
    (hlayout : ∀ s, (e.slots s).layout ≠ none) :
    (setActiveSlotControlBlocks activeSlot confirmed).returns (fun _ _ ↦ True)
      (fun _ t ↦ BlocksUpdated (activeFields activeSlot confirmed) e t) e := by
  have hpass : ∀ slot {e : EcuStore}, e.Sound → (∀ s, (e.slots s).layout ≠ none) →
      (updateControlBlock slot (activeFields activeSlot confirmed slot)).returns (fun _ _ ↦ True)
        (fun _ t ↦ BlocksUpdated
          (fun s ↦ if s = slot then activeFields activeSlot confirmed slot else []) e t) e :=
    fun slot _ he hlayout ↦
      updateControlBlock_fields slot (nodup_activeFields _ _ slot) he (hlayout slot)
  apply Persist.returns_bind (hpass .A he hlayout)
  intro _ t ht
  apply Persist.returns_bind (hpass .B (ht.quiet.sound he)
    fun s ↦ by rw [(ht.quiet.slots s).layout]; exact hlayout s)
  intro _ u hu
  refine (Persist.returns_pure _).mpr ((ht.trans hu).congr fun s ↦ ?_)
  cases s <;> simp

end SlotManager

/-! ## What a rollback writes -/

/-- What `rollback_pending` writes into the block of the active slot. -/
def rejectedFields (reason : String) : List (String × Field) :=
  [("bootable", .flag false), ("active", .flag false), ("confirmed", .flag false),
    ("rollback_reason", .text reason)]

/-- The slots behind a rollback from `e`. -/
structure RolledBackSlots (reason : String) (e t : EcuStore) : Prop where
  rejected : ∃ journal, (t.slots e.slotInfo.activeSlot).journal = some journal ∧
    journal.state = .rolledBack
  spared : ∀ s, s ≠ e.slotInfo.activeSlot → (t.slots s).journal = (e.slots s).journal
  field : ∀ s, ∀ key ∉ addressFields, (t.slots s).field key =
    ((SlotManager.activeFields e.slotInfo.confirmedSlot true s ++
        if s = e.slotInfo.activeSlot then rejectedFields reason else []).lookup key).or
      ((e.slots s).field key)

theorem SlotManager.updateJournal_entry {e : EcuStore} (slot : Slot) {state : JournalState}
    (updates : List (String × Field)) (hstate : state ∉ incompleteJournalStates) (he : e.Sound)
    (hlayout : (e.slots slot).layout ≠ none) :
    (updateJournal slot state updates).returns (fun _ _ ↦ True)
      (fun _ t ↦ e.Quiet t ∧ ∃ journal, journal.state = state ∧
        t = e.setSlot slot { e.slots slot with journal := some journal }) e := by
  apply Persist.returns_bind (flashOf_present slot he hlayout)
  rintro _ e ⟨⟨flash, rfl⟩, rfl⟩
  refine (Persist.returns_zoom (e.setSlot_self slot)).mpr ?_
  rw [FlashMemoryEmulator.updateJournal, Persist.returns_write]
  refine ⟨trivial, .setSlot ⟨rfl, rfl, fun h ↦ absurd h hlayout, ?_⟩, _, ?_, rfl⟩
  · simp [SlotDir.incomplete, hstate]
  · rfl

theorem rollbackPending_slots {e : EcuStore} (reason : String) (he : e.Sound)
    (hlayout : ∀ s, (e.slots s).layout ≠ none) :
    (SlotManager.rollbackPending reason).returns (fun _ _ ↦ True)
      (fun _ t ↦ RolledBackSlots reason e t) e := by
  have hload : SlotManager.loadState.returns (fun _ _ ↦ True)
      (fun state t ↦ state = e.slotInfo ∧ t = e.setSlotInfo e.slotInfo) e :=
    (Persist.performs_mono SlotManager.loadState_performs (fun _ _ _ ↦ trivial)
      fun _ _ ↦ id).returns fun _ _ ↦ trivial
  apply Persist.returns_bind hload
  rintro _ _ ⟨rfl, rfl⟩
  refine Persist.returns_bind (P := fun _ t ↦
    t = e.setSlotInfo (e.slotInfo.rollbackPending reason)) ((Persist.returns_write _ _).mpr
      ⟨trivial, rfl⟩) ?_
  rintro _ _ rfl
  apply Persist.returns_bind (SlotManager.updateJournal_entry e.slotInfo.activeSlot _ (by decide)
    (EcuStore.sound_setSlotInfo.mpr he) (hlayout _))
  rintro _ t ⟨hquiet, journal, hstate, rfl⟩
  have hkept : ∀ {t : EcuStore}, (e.setSlotInfo (e.slotInfo.rollbackPending reason)).Quiet t →
      t.Sound ∧ ∀ s, (t.slots s).layout ≠ none :=
    fun hq ↦ ⟨hq.sound he, fun s ↦ by rw [(hq.slots s).layout]; exact hlayout s⟩
  apply Persist.returns_bind (@SlotManager.updateControlBlock_fields _ e.slotInfo.activeSlot
    (rejectedFields reason) (by simp [rejectedFields]) (hkept hquiet).1 ((hkept hquiet).2 _))
  intro _ u hu
  refine Persist.returns_mono (SlotManager.setActiveSlotControlBlocks_fields
    e.slotInfo.confirmedSlot true (hkept (hquiet.trans hu.quiet)).1
    (hkept (hquiet.trans hu.quiet)).2) (fun _ _ ↦ id) ?_
  intro _ v hv
  have hblocks := hu.trans hv
  refine ⟨⟨journal, ?_, hstate⟩, fun s hs ↦ ?_, fun s key hkey ↦ ?_⟩
  · rw [hblocks.journal, EcuStore.slots_setSlot_self]
  · rw [hblocks.journal, EcuStore.slots_setSlot_of_ne _ _ hs, EcuStore.slots_setSlotInfo]
  · rw [hblocks.field s key hkey]
    congr 1
    by_cases hs : s = e.slotInfo.activeSlot
    · rw [hs, EcuStore.slots_setSlot_self]
      rfl
    · rw [EcuStore.slots_setSlot_of_ne _ _ hs, EcuStore.slots_setSlotInfo]

/-- The slot `p` is rejected for `reason`, and the confirmed slot of `e` runs untouched. -/
structure Condemned (p : Slot) (reason : String) (e t : EcuStore) : Prop where
  bootable : (t.slots p).field "bootable" = some (.flag false)
  active : (t.slots p).field "active" = some (.flag false)
  confirmed : (t.slots p).field "confirmed" = some (.flag false)
  rollbackReason : (t.slots p).field "rollback_reason" = some (.text reason)
  journal : ∃ journal, (t.slots p).journal = some journal ∧ journal.state = .rolledBack
  keptJournal : (t.slots e.slotInfo.confirmedSlot).journal =
    (e.slots e.slotInfo.confirmedSlot).journal
  keptReason : (t.slots e.slotInfo.confirmedSlot).field "rollback_reason" =
    (e.slots e.slotInfo.confirmedSlot).field "rollback_reason"
  confirmedActive : (t.slots e.slotInfo.confirmedSlot).field "active" = some (.flag true)
  confirmedConfirmed : (t.slots e.slotInfo.confirmedSlot).field "confirmed" = some (.flag true)
  confirmedBootable : (t.slots e.slotInfo.confirmedSlot).field "bootable" = some (.flag true)

/-- The second pass over both blocks leaves the verdict on the active slot alone. -/
theorem RolledBackSlots.condemned {e t : EcuStore} {reason : String}
    (h : RolledBackSlots reason e t) (hne : e.slotInfo.activeSlot ≠ e.slotInfo.confirmedSlot) :
    Condemned e.slotInfo.activeSlot reason e t := by
  have hrejected : ∀ key ∉ addressFields, (t.slots e.slotInfo.activeSlot).field key =
      (([("active", .flag false), ("confirmed", .flag false)] ++ rejectedFields reason :
        List (String × Field)).lookup key).or ((e.slots e.slotInfo.activeSlot).field key) := by
    intro key hkey
    rw [h.field _ key hkey, SlotManager.activeFields]
    simp [hne]
  have hconfirmed : ∀ key ∉ addressFields, (t.slots e.slotInfo.confirmedSlot).field key =
      (([("active", .flag true), ("confirmed", .flag true), ("bootable", .flag true)] :
        List (String × Field)).lookup key).or
          ((e.slots e.slotInfo.confirmedSlot).field key) := by
    intro key hkey
    rw [h.field _ key hkey, SlotManager.activeFields, if_neg hne.symm]
    simp
  exact
    { bootable := hrejected _ (by decide)
      active := hrejected _ (by decide)
      confirmed := hrejected _ (by decide)
      rollbackReason := hrejected _ (by decide)
      journal := h.rejected
      keptJournal := h.spared _ hne.symm
      keptReason := hconfirmed "rollback_reason" (by decide)
      confirmedActive := hconfirmed _ (by decide)
      confirmedConfirmed := hconfirmed _ (by decide)
      confirmedBootable := hconfirmed _ (by decide) }

/-! ## A slot that has not booted has not been rejected -/

def SlotDir.Unrejected (d : SlotDir) : Prop := ∀ journal ∈ d.journal, journal.state ≠ .rolledBack

theorem SlotDir.unrejected_of_incomplete {d : SlotDir} (h : d.incomplete = true) :
    d.Unrejected := by
  intro journal hjournal hstate
  rw [SlotDir.incomplete, Option.mem_def.mp hjournal] at h
  simp [hstate, incompleteJournalStates] at h

/-- The pending slot is the active one, or its journal is not that of a rejected image. -/
structure PendingOpen (e : EcuStore) : Prop where
  sound : e.Sound
  unrejected : ∀ p ∈ e.slotInfo.pendingSlot, e.slotInfo.activeSlot ≠ p → (e.slots p).Unrejected

/-- … or nothing is pending that has not booted. -/
structure PendingBooted (e : EcuStore) : Prop where
  sound : e.Sound
  booted : ∀ p ∈ e.slotInfo.pendingSlot, e.slotInfo.activeSlot = p

theorem PendingBooted.pendingOpen {e : EcuStore} (h : PendingBooted e) : PendingOpen e :=
  ⟨h.sound, fun p hp hne ↦ absurd (h.booted p hp) hne⟩

theorem PendingBooted.quiet {e t : EcuStore} (h : PendingBooted e) (hq : e.Quiet t) :
    PendingBooted t := by
  refine ⟨hq.sound h.sound, ?_⟩
  rw [hq.slotInfo]
  exact h.booted

theorem PendingOpen.congr {e t : EcuStore} (h : PendingOpen e) (hslots : t.slots = e.slots)
    (hinfo : t.slotInfo = e.slotInfo) : PendingOpen t := by
  refine ⟨?_, ?_⟩
  · rw [EcuStore.Sound, hslots]
    exact h.sound
  · rw [hslots, hinfo]
    exact h.unrejected

section Records

variable {α : Type} {e x : EcuStore} {ws : List (Write EcuFile EcuStore)}
  {P : α → EcuStore → Prop} {m : EcuM α}

/-- Known writes that keep the invariant, and quiet ones behind a settled store. -/
theorem wp_pendingOpen (h : m.performs ws x.QuietWrite P e) (hws : ∀ w ∈ ws, PendingOpen w.2)
    (hx : PendingBooted x) (hP : ∀ a t, P a t → x.Quiet t) :
    m.wp (fun _ t ↦ PendingOpen t) (fun _ t ↦ PendingOpen t) e := by
  refine Persist.wp_mono ((Persist.performs_mono h
    (D := fun _ t ↦ PendingOpen t) (fun _ _ hw ↦ (hx.quiet hw.2).pendingOpen)
    fun _ _ ↦ id).returns hws) (fun _ _ ↦ id) ?_
  rintro _ t ⟨a, rfl, ha⟩
  exact (hx.quiet (hP a t ha)).pendingOpen

theorem pendingOpen_opening (h : PendingOpen e) :
    ∀ w ∈ SlotManager.openingWrites e, PendingOpen w.2 := by
  intro w hw
  rw [SlotManager.openingWrites] at hw
  split at hw
  · obtain rfl := List.mem_singleton.mp hw
    exact h.congr rfl rfl
  · cases hw

theorem keeps_loadState_of {I : EcuStore → Prop} (hI : ∀ e, I e → I (e.setSlotInfo {})) :
    Persist.Keeps I SlotManager.loadState := by
  refine Persist.keeps_bind (Persist.keeps_reads _) fun state ↦ ?_
  cases state with
  | some state => exact Persist.keeps_pure state
  | none => exact Persist.keeps_bind (Persist.keeps_write _ hI) fun _ ↦ Persist.keeps_pure _

theorem keeps_flashOf {I : EcuStore → Prop} (slot : Slot) :
    Persist.Keeps I (SlotManager.flashOf slot) := by
  refine Persist.keeps_bind (Persist.keeps_reads _) fun layout ↦ ?_
  cases layout with
  | none => exact Persist.keeps_pure _
  | some layout =>
      dsimp only
      cases layout.geometry with
      | none => exact Persist.keeps_raise _
      | some geometry => exact Persist.keeps_pure _

theorem keeps_updateControlBlock {I : EcuStore → Prop} (slot : Slot)
    (updates : List (String × Field))
    (h : ∀ flash : FlashMemoryEmulator, Persist.Keeps I (inSlot slot (flash.writeControlBlock updates))) :
    Persist.Keeps I (SlotManager.updateControlBlock slot updates) := by
  refine Persist.keeps_bind (keeps_flashOf slot) fun flash ↦ ?_
  cases flash with
  | none => exact Persist.keeps_pure _
  | some flash => exact h flash

theorem keeps_loadState : Persist.Keeps PendingOpen SlotManager.loadState :=
  keeps_loadState_of fun _ h ↦ ⟨h.sound, fun p hp ↦ absurd hp (Option.not_mem_none p)⟩

theorem keeps_activatePending : Persist.Keeps PendingOpen SlotManager.activatePending := by
  intro e h
  cases hp : e.slotInfo.pendingSlot with
  | none =>
      have hnone := (Persist.performs_mono (SlotManager.activatePending_none hp)
        (D := fun _ t ↦ PendingOpen t) (fun _ _ ↦ False.elim) fun _ _ ↦ id).returns
          (pendingOpen_opening h)
      refine Persist.wp_mono hnone (fun _ _ ↦ id) ?_
      rintro _ _ ⟨_, -, -, rfl⟩
      exact h.congr rfl rfl
  | some p =>
      have hx : PendingBooted (e.setSlotInfo (e.slotInfo.activatePending p)) :=
        ⟨h.sound, fun q hq ↦ Option.some.inj (hp.symm.trans hq)⟩
      refine wp_pendingOpen (SlotManager.activatePending_some hp h.sound) ?_ hx fun _ _ ht ↦ ht.2
      rintro _ hw
      obtain rfl := List.mem_singleton.mp hw
      exact hx.pendingOpen

theorem keeps_of_settles {state : EcuStore → SlotState}
    (hperforms : ∀ e : EcuStore, e.Sound → m.performs
      (SlotManager.openingWrites e ++ [(.slotState, e.setSlotInfo (state e))])
      (e.setSlotInfo (state e)).QuietWrite (fun _ t ↦ (e.setSlotInfo (state e)).Quiet t) e)
    (hnone : ∀ e, (state e).pendingSlot = none) : Persist.Keeps PendingOpen m := by
  intro e h
  have hx : PendingBooted (e.setSlotInfo (state e)) := by
    refine ⟨h.sound, fun p hp ↦ ?_⟩
    rw [EcuStore.slotInfo_setSlotInfo, hnone] at hp
    cases hp
  refine wp_pendingOpen (hperforms e h.sound) ?_ hx fun _ _ ht ↦ ht
  intro w hw
  rcases List.mem_append.mp hw with hw | hw
  · exact pendingOpen_opening h w hw
  · obtain rfl := List.mem_singleton.mp hw
    exact hx.pendingOpen

theorem keeps_commitPending : Persist.Keeps PendingOpen SlotManager.commitPending :=
  keeps_of_settles (fun _ he ↦ SlotManager.commitPending_performs he) fun _ ↦ rfl

theorem keeps_rollbackPending (reason : String) :
    Persist.Keeps PendingOpen (SlotManager.rollbackPending reason) :=
  keeps_of_settles (fun _ he ↦ SlotManager.rollbackPending_performs reason he) fun _ ↦ rfl

theorem keeps_save (data : VersionState) : Persist.Keeps PendingOpen (VersionManager.save data) :=
  Persist.keeps_write _ fun _ h ↦ h.congr rfl rfl

theorem keeps_hasPendingCommit : Persist.Keeps PendingOpen VersionManager.hasPendingCommit :=
  Persist.keeps_bind (Persist.keeps_reads _) fun _ ↦ Persist.keeps_pure _

theorem keeps_bootPendingVersion :
    Persist.Keeps PendingOpen VersionManager.bootPendingVersion :=
  Persist.keeps_bind (Persist.keeps_reads _) fun data ↦
    Persist.keeps_ite (Persist.keeps_pure _)
      (Persist.keeps_bind (keeps_save data.bootPending) fun _ ↦ Persist.keeps_pure _)

theorem keeps_rollbackPendingVersion (reason : String) :
    Persist.Keeps PendingOpen (VersionManager.rollbackPendingVersion reason) :=
  Persist.keeps_bind (Persist.keeps_reads _) fun data ↦
    Persist.keeps_bind (keeps_save (data.rollbackPending reason)) fun _ ↦ Persist.keeps_pure _

theorem keeps_confirmVersion (version : String) :
    Persist.Keeps PendingOpen (VersionManager.confirmVersion version) :=
  Persist.keeps_bind (Persist.keeps_ofExcept _) fun normalized ↦
    Persist.keeps_bind (Persist.keeps_reads _) fun data ↦
      Persist.keeps_bind (keeps_save (data.confirm normalized)) fun _ ↦ Persist.keeps_pure _

theorem keeps_rollback (reason : String) :
    Persist.Keeps PendingOpen (RebootManager.rollback reason) :=
  Persist.keeps_bind (keeps_rollbackPendingVersion reason) fun _ ↦ keeps_rollbackPending reason

theorem keeps_pendingJournalRequiresRecovery :
    Persist.Keeps PendingOpen SlotManager.pendingJournalRequiresRecovery := by
  refine Persist.keeps_bind keeps_loadState fun state ↦ ?_
  cases state.pendingSlot with
  | none => exact Persist.keeps_pure _
  | some p => exact Persist.keeps_reads _

theorem keeps_attemptLimitExceeded :
    Persist.Keeps PendingOpen RebootManager.attemptLimitExceeded :=
  Persist.keeps_bind keeps_hasPendingCommit fun _ ↦
    Persist.keeps_ite (Persist.keeps_bind keeps_loadState fun _ ↦ Persist.keeps_pure _)
      (Persist.keeps_pure _)

theorem keeps_boot : Persist.Keeps PendingOpen RebootManager.boot :=
  Persist.keeps_bind keeps_hasPendingCommit fun _ ↦
    Persist.keeps_ite (Persist.keeps_bind keeps_bootPendingVersion fun _ ↦ keeps_activatePending)
      keeps_activatePending

theorem keeps_reboot : Persist.Keeps PendingOpen RebootManager.reboot :=
  Persist.keeps_bind keeps_pendingJournalRequiresRecovery fun _ ↦
    Persist.keeps_ite (Persist.keeps_bind (keeps_rollback _) fun _ ↦ Persist.keeps_pure _)
      (Persist.keeps_bind keeps_attemptLimitExceeded fun _ ↦
        Persist.keeps_ite (Persist.keeps_bind (keeps_rollback _) fun _ ↦ Persist.keeps_pure _)
          keeps_boot)

end Records

/-! ## Installations -/

section Install

variable {e t : EcuStore} {metadata : Firmware.FirmwareImageMetadata} {payload : Bytes}
  {firmwareFile : FirmwareFile} {ecuName targetVersion normalized : String}

/-- The journal of the slot `s` is not that of a rejected image. -/
def EcuStore.UnrejectedAt (s : Slot) (e : EcuStore) : Prop := (e.slots s).Unrejected

theorem unrejectedAt_setSlot {s slot : Slot} {d : SlotDir} (h : e.UnrejectedAt s)
    (hd : s = slot → d.Unrejected) : (e.setSlot slot d).UnrejectedAt s := by
  rw [EcuStore.UnrejectedAt]
  by_cases hs : s = slot
  · rw [hs, EcuStore.slots_setSlot_self]
    exact hd hs
  · rwa [EcuStore.slots_setSlot_of_ne _ _ hs]

theorem keeps_inSlot {α : Type} {s slot : Slot} {m : FlashM α}
    (hm : Persist.Keeps SlotDir.Unrejected m) :
    Persist.Keeps (EcuStore.UnrejectedAt s) (inSlot slot m) := by
  intro e he
  rw [wp_inSlot]
  by_cases hs : s = slot
  · subst hs
    exact Persist.wp_mono (hm _ he) (fun _ d hd ↦ unrejectedAt_setSlot he fun _ ↦ hd)
      fun _ d hd ↦ unrejectedAt_setSlot he fun _ ↦ hd
  · exact ⟨fun w _ ↦ unrejectedAt_setSlot he fun h ↦ absurd h hs,
      unrejectedAt_setSlot he fun h ↦ absurd h hs⟩

theorem keeps_writeControlBlock (flash : FlashMemoryEmulator) (fields : List (String × Field)) :
    Persist.Keeps SlotDir.Unrejected (flash.writeControlBlock fields) :=
  Persist.keeps_bind (Persist.keeps_reads _) fun _ ↦ Persist.keeps_write _ fun _ h ↦ h

theorem keeps_updateJournal (flash : FlashMemoryEmulator) {state : JournalState}
    (extra : List (String × Field)) (hstate : state ≠ .rolledBack) :
    Persist.Keeps SlotDir.Unrejected (flash.updateJournal state extra) := by
  refine Persist.keeps_write _ fun d _ journal hjournal ↦ ?_
  obtain rfl := Option.some.inj hjournal
  exact hstate

theorem keeps_read (flash : FlashMemoryEmulator) (address size : ℕ) :
    Persist.Keeps SlotDir.Unrejected (flash.read address size) := by
  refine Persist.keeps_bind (Persist.keeps_ofExcept _) fun offset ↦
    Persist.keeps_ite (Persist.keeps_raise _) (Persist.keeps_bind ?_ fun _ ↦ Persist.keeps_pure _)
  refine Persist.keeps_bind (Persist.keeps_reads _) fun memory ↦ ?_
  cases memory with
  | none => exact Persist.keeps_raise _
  | some file => exact Persist.keeps_pure _

theorem keeps_verifyImage (pendingSlot : Slot) :
    Persist.Keeps SlotDir.Unrejected (verifyImage metadata payload pendingSlot targetVersion) := by
  have hrecord : Persist.Keeps SlotDir.Unrejected
      (recordPayloadMetadata metadata.flashAddress payload) :=
    Persist.keeps_bind (Persist.keeps_reads _) fun _ ↦ Persist.keeps_write _ fun _ h ↦ h
  refine Persist.keeps_bind (Persist.keeps_bind (keeps_read _ _ _) fun _ ↦ Persist.keeps_pure _)
    fun verified ↦ Persist.keeps_ite (Persist.keeps_raise _) (Persist.keeps_bind
      (Persist.keeps_bind (keeps_read _ _ _) fun _ ↦ Persist.keeps_pure _) fun digest ↦
        Persist.keeps_ite (Persist.keeps_raise _) ?_)
  exact Persist.keeps_bind hrecord fun _ ↦ Persist.keeps_bind
    (keeps_updateJournal _ _ (by decide)) fun _ ↦ keeps_updateJournal _ _ (by decide)

theorem keeps_stageFirmware (s : Slot) :
    Persist.Keeps (EcuStore.UnrejectedAt s) (SlotManager.stageFirmware firmwareFile) := by
  have hload : Persist.Keeps (EcuStore.UnrejectedAt s) SlotManager.loadState :=
    keeps_loadState_of fun _ h ↦ h
  refine Persist.keeps_bind (Persist.keeps_bind (Persist.keeps_bind hload fun _ ↦
    Persist.keeps_pure _) fun _ ↦ Persist.keeps_pure _) fun slot ↦ Persist.keeps_bind ?unlink
      fun _ ↦ Persist.keeps_bind ?move fun _ ↦ Persist.keeps_pure _
  case unlink =>
    refine Persist.keeps_bind (Persist.keeps_reads _) fun image ↦ ?_
    cases image with
    | none => exact Persist.keeps_pure _
    | some image => exact keeps_inSlot (Persist.keeps_write _ fun _ h ↦ h)
  case move =>
    refine Persist.keeps_bind (Persist.keeps_reads _) fun image ↦ ?_
    cases image with
    | none => exact Persist.keeps_raise _
    | some image =>
        refine Persist.keeps_write _ fun e h ↦ ?_
        refine unrejectedAt_setSlot (d := (e.slots slot).withImage firmwareFile (some image)) h ?_
        rintro rfl
        exact h

theorem keeps_markImagePending (s : Slot) (targetSlot : Slot) :
    Persist.Keeps (EcuStore.UnrejectedAt s)
      (markImagePending ecuName metadata targetSlot firmwareFile targetVersion) := by
  have hload : Persist.Keeps (EcuStore.UnrejectedAt s) SlotManager.loadState :=
    keeps_loadState_of fun _ h ↦ h
  refine Persist.keeps_bind (keeps_stageFirmware s) fun pendingSlot ↦ Persist.keeps_bind
    (keeps_inSlot (keeps_writeControlBlock _ _)) fun _ ↦ Persist.keeps_bind
      (Persist.keeps_bind hload fun state ↦ Persist.keeps_bind
        (Persist.keeps_write _ fun _ h ↦ h) fun _ ↦ ?_) fun _ ↦ Persist.keeps_pure _
  exact keeps_updateControlBlock _ _ fun flash ↦ keeps_inSlot (keeps_writeControlBlock flash _)

/-- The invariant from what the writes of an installation leave. -/
theorem pendingOpen_of_stage {v : VersionState} {w : SlotState} {D : SlotDir → Prop}
    (h : Stage e v w D t) (he : PendingOpen e) (hD : ∀ d, D d → d.Sound)
    (hactive : w.activeSlot = e.slotInfo.activeSlot) (htarget : t.UnrejectedAt e.target) :
    PendingOpen t := by
  refine ⟨h.sound he.sound hD, fun p _ hne ↦ ?_⟩
  rw [h.slotInfo, hactive] at hne
  obtain rfl : p = e.target := Slot.eq_other_of_ne hne.symm
  exact htarget

theorem pendingOpen_flashing (he : PendingOpen e)
    (h : Stage e e.versions e.slotInfo (Flashing (e.slots e.target)) t) : PendingOpen t := by
  refine ⟨h.sound he.sound fun _ hd ↦ hd.sound, fun p hp hne ↦ ?_⟩
  rw [h.slotInfo] at hp hne
  obtain rfl : p = e.target := Slot.eq_other_of_ne hne.symm
  rcases h.target.journal with hj | hj
  · rw [SlotDir.Unrejected, hj]
    exact he.unrejected _ hp hne
  · exact SlotDir.unrejected_of_incomplete hj

theorem pendingOpen_staging {i : EcuFile} (he : PendingOpen e)
    (h : StagingWrite e metadata payload firmwareFile targetVersion i t)
    (htarget : t.UnrejectedAt e.target) : PendingOpen t := by
  rcases h.phase with h | h | ⟨normalized, -, h⟩
  · exact pendingOpen_flashing he h
  · exact pendingOpen_of_stage h he (fun _ hd ↦ hd.sound) rfl htarget
  · exact pendingOpen_of_stage h he (fun _ hd ↦ hd.sound) rfl htarget

/-- The journal of the target slot is incomplete when the record names the slot, and only
verification closes it. -/
theorem wp_stageImage {image : Bytes} (he : PendingOpen e) (hdesc : Describes metadata payload)
    (hdownload : e.downloads firmwareFile = some image) :
    (stageImage ecuName metadata payload firmwareFile targetVersion).wp
      (fun _ t ↦ PendingOpen t) (fun _ t ↦ PendingOpen t) e := by
  rw [stageImage]
  refine Persist.wp_bind_of_returns (P := fun s t ↦ s = e.target ∧ t = e.setSlotInfo e.slotInfo)
    ((Persist.performs_mono inactiveSlot_performs (fun _ _ ↦ False.elim)
      fun _ _ ↦ id).returns (pendingOpen_opening he)) ?_
  rintro _ _ ⟨rfl, rfl⟩
  have hprogram := (stage_opened he.sound).inSlot
    (programImage_returns firmwareFile targetVersion (he.sound e.target) hdesc.size)
  refine Persist.wp_bind_of_returns (Persist.returns_mono hprogram ?_ fun _ _ ↦ id) ?_
  · rintro i t ⟨-, f, ht⟩
    exact pendingOpen_flashing he ht
  rintro _ t ⟨ht, hdown⟩
  have hopen : ∀ {t : EcuStore} {v w}, Stage e v w (ImageOpen metadata payload) t →
      t.UnrejectedAt e.target := fun h ↦ SlotDir.unrejected_of_incomplete h.target.incomplete
  have hmark := (keeps_markImagePending e.target e.target).returns (hopen ht)
    (@markImagePending_observes e t metadata payload firmwareFile ecuName targetVersion image
      he.sound (hdown ▸ hdownload) ht).1
  refine Persist.wp_bind_of_returns (Persist.returns_mono hmark
    (fun i t h ↦ pendingOpen_staging he h.1 h.2) fun _ _ ↦ id) ?_
  rintro _ u ⟨⟨rfl, hu⟩, -⟩
  cases hversion : normalizeVersion targetVersion with
  | error err =>
      simp only [VersionManager.setPendingVersion, hversion, Persist.wp_bind, Persist.wp_ofExcept]
      exact pendingOpen_of_stage hu he (fun _ hd ↦ hd.sound) rfl (hopen hu)
  | ok normalized =>
      have hpended := hu.setVersions (u.versions.pend normalized (some e.target))
      have hpend := (VersionManager.setPendingVersion_performs e.target hversion (e := u))
      refine Persist.wp_bind_of_returns ((Persist.performs_mono hpend (fun _ _ ↦ False.elim)
        fun _ _ ↦ id).returns ?_) ?_
      · intro w hw
        obtain rfl := List.mem_singleton.mp hw
        exact pendingOpen_of_stage hpended he (fun _ hd ↦ hd.sound) rfl (hopen hpended)
      rintro _ _ rfl
      have hverify := (keeps_verifyImage e.target).returns (hopen hpended)
        (verifyImage_returns e.target targetVersion hdesc.size hdesc.sha256 hpended.target)
      refine Persist.wp_mono (hpended.inSlot hverify) ?_ ?_
      · rintro i t ⟨-, f, ht⟩
        exact pendingOpen_of_stage ht he (fun _ hd ↦ hd.1.sound) rfl ht.target.2
      · rintro _ t ⟨_, -, ht, -⟩
        exact pendingOpen_of_stage ht he (fun _ hd ↦ hd.1.1.sound) rfl ht.target.2

theorem keeps_install (ecuName : String) (firmwareFile : FirmwareFile) (targetVersion : String) :
    Persist.Keeps PendingOpen (install ecuName firmwareFile targetVersion) := by
  intro e he
  have hlegacy : ∀ u, Legacy e u → PendingOpen u := by
    rintro _ ⟨installed, rfl⟩
    exact he.congr rfl rfl
  refine install_wp hlegacy (fun _ u _ hu ↦ hlegacy u hu) fun metadata payload u haccepts hu ↦ ?_
  obtain ⟨image, hdownload, hextract⟩ := haccepts
  have hdown : u.downloads firmwareFile = some image := by
    obtain ⟨installed, rfl⟩ := hu
    exact hdownload
  rw [Persist.wp_bind]
  refine Persist.wp_mono (wp_stageImage (hlegacy u hu) (describes_of_extract hextract) hdown)
    (fun _ _ ↦ id) ?_
  rintro (err | _) t ht
  · exact ht
  · exact Persist.keeps_bind keeps_reboot (fun _ ↦ Persist.keeps_pure true) t ht

end Install

/-! ## Runs -/

/-- The operations of an ECU, each of them cut after any number of writes. -/
inductive SlotRun : EcuStore → Prop
  | fresh {m : ℕ} {e : EcuStore} (h : Fresh m e) : SlotRun e
  | cut {e : EcuStore} (h : SlotRun e) (op : Operation) (k : ℕ) : SlotRun (op.run.cutAfter k e)

theorem keeps_operation (op : Operation) : Persist.Keeps PendingOpen op.run := by
  cases op with
  | download firmwareFile content => exact Persist.keeps_write _ fun _ h ↦ h.congr rfl rfl
  | install ecuName firmwareFile targetVersion =>
      exact Persist.keeps_bind (keeps_install _ _ _) fun _ ↦ Persist.keeps_pure _
  | reboot => exact Persist.keeps_bind keeps_reboot fun _ ↦ Persist.keeps_pure _
  | confirm actual =>
      exact Persist.keeps_bind (keeps_confirmVersion actual) fun _ ↦ keeps_commitPending
  | rollback => exact keeps_rollback _

theorem SlotRun.pendingOpen {e : EcuStore} (h : SlotRun e) : PendingOpen e := by
  induction h with
  | fresh h =>
      refine ⟨h.sound, fun p hp ↦ ?_⟩
      rw [h.slotInfo] at hp
      cases hp
  | cut _ op k ih => exact (keeps_operation op).cutAfter ih k

/-- A rollback condemns the pending slot exactly if that slot has booted. -/
theorem rollback_condemns_iff (e : EcuStore) (h : SlotRun e) (p : Slot)
    (hp : e.slotInfo.pendingSlot = some p) (hne : p ≠ e.slotInfo.confirmedSlot)
    (hlayout : ∀ s, (e.slots s).layout ≠ none) (reason : String) :
    (SlotManager.rollbackPending reason e).result = .ok ⟨⟩ ∧
      (Condemned p reason e ((SlotManager.rollbackPending reason).store e) ↔
        e.slotInfo.activeSlot = p) := by
  have hopen := h.pendingOpen
  obtain ⟨_, hok, hslots⟩ := Persist.returns_run (rollbackPending_slots reason hopen.sound hlayout)
  refine ⟨hok, fun hcondemned ↦ ?_, ?_⟩
  · -- an unbooted slot keeps its journal, which is not that of a rejected image
    by_contra hactive
    obtain ⟨journal, hjournal, hstate⟩ := hcondemned.journal
    rw [hslots.spared p (Ne.symm hactive)] at hjournal
    exact hopen.unrejected p hp hactive journal hjournal hstate
  · rintro rfl
    exact hslots.condemned hne

/-! ## A slot that is not condemned -/

theorem SlotRun.complete {e : EcuStore} (h : SlotRun e) (op : Operation) :
    SlotRun (op.run.store e) := by
  have hcut := h.cut op (op.run e).writes.length
  rwa [Persist.cutAfter_of_length_le le_rfl] at hcut

section Layouts

variable {e : EcuStore} {metadata : Firmware.FirmwareImageMetadata} {payload : Bytes}
  {firmwareFile : FirmwareFile} {ecuName targetVersion normalized : String}

/-- The target slot has a layout, and the active slot the one it had. -/
structure LayoutsBehind (e t : EcuStore) : Prop where
  target : (t.slots e.target).layout ≠ none
  active : (t.slots e.slotInfo.activeSlot).layout = (e.slots e.slotInfo.activeSlot).layout

theorem LayoutsBehind.present {t : EcuStore} (h : LayoutsBehind e t)
    (he : (e.slots e.slotInfo.activeSlot).layout ≠ none) (s : Slot) : (t.slots s).layout ≠ none := by
  by_cases hs : s = e.slotInfo.activeSlot
  · rw [hs, h.active]
    exact he
  · rw [Slot.eq_other_of_ne hs]
    exact h.target

theorem layoutsBehind_of_stage {t : EcuStore} {v : VersionState} {w : SlotState}
    {D : SlotDir → Prop} (h : Stage e v w D t) (hD : ∀ d, D d → ImageIn metadata payload d) :
    LayoutsBehind e t := by
  refine ⟨?_, ?_⟩
  · obtain ⟨layout, hl, -⟩ := (hD _ h.target).layout
    rw [hl]
    exact Option.some_ne_none layout
  · rw [h.others _ (Slot.ne_other _)]

theorem LayoutsBehind.quiet {t u : EcuStore} (h : LayoutsBehind e t) (hq : t.Quiet u) :
    LayoutsBehind e u := by
  refine ⟨?_, ?_⟩
  · rw [(hq.slots _).layout]
    exact h.target
  · rw [(hq.slots _).layout]
    exact h.active

/-- What the store looks like when the record names the slot, and in the end. -/
theorem wp_stageAndReboot (he : e.Sound) (hm : 1 ≤ e.slotInfo.maxBootAttempts)
    (hlast : e.slotInfo.lastTransition ≠ Transition.staged)
    (haccepts : Accepts e firmwareFile metadata payload)
    (hversion : normalizeVersion targetVersion = .ok normalized) :
    (do
      stageImage ecuName metadata payload firmwareFile targetVersion
      let _ ← RebootManager.reboot
      return true).wp
      (fun i t ↦ seeTransition i t = some Transition.staged →
        t.slotInfo = stagedInfo e firmwareFile targetVersion ∧ LayoutsBehind e t)
      (fun _ t ↦ LayoutsBehind e t) e := by
  obtain ⟨image, hdownload, hextract⟩ := haccepts
  have hstage := (stageImage_observes ecuName he (describes_of_extract hextract) hdownload
    hversion).1
  refine Persist.wp_bind_of_returns (Persist.returns_mono hstage ?_ fun _ _ ↦ id) ?_
  · intro i t ht hsee
    rcases ht.phase with ht | ht | ⟨normalized', -, ht⟩
    · rw [seeTransition, ht.slotInfo] at hsee
      split at hsee
      · exact absurd (Option.some.inj hsee) hlast
      · cases hsee
    · exact ⟨ht.slotInfo, layoutsBehind_of_stage ht fun _ hd ↦ hd.toHolds⟩
    · exact ⟨ht.slotInfo, layoutsBehind_of_stage ht fun _ hd ↦ hd⟩
  intro _ t ht
  have hbehind : LayoutsBehind e t := layoutsBehind_of_stage ht fun _ hd ↦ hd.1
  have hreboot := staged_reboots hm he hversion ht
  refine Persist.wp_bind_of_returns ((Persist.performs_mono hreboot (fun i u hq hsee ↦ ?_)
    fun _ _ ↦ id).returns ?_) ?_
  · rw [seeTransition_quiet hq] at hsee
    cases hsee
  · simp only [List.mem_cons, List.not_mem_nil, or_false, forall_eq_or_imp, forall_eq]
    refine ⟨fun hsee ↦ ?_, fun hsee ↦ ?_⟩
    · cases hsee
    · exact absurd (Option.some.inj hsee) (by simp [EcuStore.booted, SlotState.activatePending])
  · rintro _ u ⟨-, hu⟩
    have hbooted : LayoutsBehind e (t.booted e.target) := ⟨hbehind.target, hbehind.active⟩
    exact (Persist.wp_pure _).mpr (hbooted.quiet hu)

theorem wp_install_layouts (ecuName : String) (he : e.Sound)
    (hm : 1 ≤ e.slotInfo.maxBootAttempts)
    (hlast : e.slotInfo.lastTransition ≠ Transition.staged)
    (haccepts : Accepts e firmwareFile metadata payload)
    (hversion : normalizeVersion targetVersion = .ok normalized) :
    (install ecuName firmwareFile targetVersion).wp
      (fun i t ↦ seeTransition i t = some Transition.staged →
        t.slotInfo = stagedInfo e firmwareFile targetVersion ∧ LayoutsBehind e t)
      (fun _ t ↦ LayoutsBehind e t) e := by
  refine install_wp (fun u _ hsee ↦ ?_) (fun err u hnot _ ↦ absurd haccepts (hnot _ _)) ?_
  · cases hsee
  · rintro metadata' payload' _ haccepts' ⟨installed, rfl⟩
    refine Persist.wp_mono (@wp_stageAndReboot { e with installed := installed } _ _ _ _ _ _ he hm
      hlast haccepts' hversion) (fun i t h hsee ↦ ?_) fun _ t h ↦ ⟨h.target, h.active⟩
    obtain ⟨hinfo, hbehind⟩ := h hsee
    exact ⟨hinfo, hbehind.target, hbehind.active⟩

/-- Power can be lost between `mark_pending` and the first boot. -/
theorem exists_cut_staged {m : ℕ} {a : State Slot String} (ecuName : String) (hm : 1 ≤ m)
    (h : Represents m a e) (hlast : e.slotInfo.lastTransition ≠ Transition.staged)
    (haccepts : Accepts e firmwareFile metadata payload)
    (hversion : normalizeVersion targetVersion = .ok normalized) :
    ∃ k, ((install ecuName firmwareFile targetVersion).cutAfter k e).slotInfo =
        stagedInfo e firmwareFile targetVersion ∧
      LayoutsBehind e ((install ecuName firmwareFile targetVersion).cutAfter k e) := by
  have hstaged : Transition.staged ∈
      (install ecuName firmwareFile targetVersion).observe seeTransition e := by
    rw [(install_observes ecuName hm h haccepts hversion).2]
    exact List.mem_cons_self
  have hwp := wp_install_layouts ecuName h.sound (by rw [h.limit]; exact hm) hlast haccepts
    hversion
  obtain ⟨k, i, hcut, hsee⟩ := Persist.exists_cutAfter_of_mem_observe hwp hstaged
  exact ⟨k, hcut hsee⟩

end Layouts

/-- An updated ECU: the slot `B` is confirmed, and the next image is downloaded. -/
structure AwaitsImage (e : EcuStore) : Prop where
  run : SlotRun e
  represents : Represents 1 ⟨.B, "2.0.0", none⟩ e
  lastTransition : e.slotInfo.lastTransition ≠ .staged
  layout : (e.slots e.slotInfo.activeSlot).layout ≠ none
  download : e.downloads bcmFirmware = some (Firmware.bareImage 0)

theorem awaitsImage_of_booted {e : EcuStore} (h : SlotRun e)
    (hrep : Represents 1 ⟨.A, "1.0.0", some ⟨.B, "2.0.0", 1⟩⟩ e)
    (hlayout : (e.slots .B).layout ≠ none) : ∃ t, AwaitsImage t := by
  have hversion : normalizeVersion "2.0.0" = .ok "2.0.0" := by rfl
  obtain ⟨_, _, hconfirmed⟩ := Persist.returns_run (confirm_observes hrep rfl hversion).1
  obtain ⟨_, _, hquiet⟩ := (confirm_performs hversion hrep.sound).run
  have hrun : SlotRun ((PostInstallValidator.confirm "2.0.0").store e) :=
    h.complete (.confirm "2.0.0")
  generalize (PostInstallValidator.confirm "2.0.0").store e = t at hconfirmed hquiet hrun
  have hdownload := download_quiet t bcmFirmware (Firmware.bareImage 0)
  have hrep' := hconfirmed.quiet hdownload
  refine ⟨_, hrun.complete (.download bcmFirmware (Firmware.bareImage 0)), hrep', ?_, ?_, ?_⟩
  · rw [hdownload.slotInfo, hquiet.slotInfo]
    exact fun hlast ↦ Transition.noConfusion hlast
  · rw [hrep'.activeS, (hdownload.slots _).layout, (hquiet.slots _).layout]
    exact hlayout
  · exact Function.update_self bcmFirmware (some (Firmware.bareImage 0)) t.downloads

theorem exists_awaitsImage : ∃ e, AwaitsImage e := by
  have hversion : normalizeVersion "2.0.0" = .ok "2.0.0" := by rfl
  obtain ⟨metadata, haccepts⟩ := accepts_bareImage (e := deliveredEcu) (b := 0) rfl
  have hrep := fresh_deliveredEcu.represents (by simp [deliveredEcu])
  have hbehind := (wp_install_layouts "bcm" hrep.sound le_rfl (by decide) haccepts hversion).2
  obtain ⟨_, _, hinstalled⟩ := Persist.returns_run installed_deliveredEcu.1
  have hrun := (SlotRun.fresh fresh_deliveredEcu).complete (.install "bcm" bcmFirmware "2.0.0")
  rw [Operation.run, Persist.store_discard] at hrun
  have hlayout := hbehind.target
  rw [show deliveredEcu.target = .B from rfl] at hlayout
  exact awaitsImage_of_booted hrun hinstalled hlayout

/-- A rollback condemns the image that has booted. -/
theorem rollback_condemns_booted :
    ∃ e p, SlotRun e ∧ Condemned p "POST_INSTALL_VALIDATION_FAILED" e
      ((SlotManager.rollbackPending "POST_INSTALL_VALIDATION_FAILED").store e) := by
  have hversion : normalizeVersion "3.0.0" = .ok "3.0.0" := by rfl
  obtain ⟨e, he⟩ := exists_awaitsImage
  obtain ⟨metadata, haccepts⟩ := accepts_bareImage he.download
  obtain ⟨_, _, hrep⟩ := Persist.returns_run
    (install_observes "bcm" le_rfl he.represents haccepts hversion).1
  have hbehind := (wp_install_layouts "bcm" he.represents.sound he.represents.limit.ge
    he.lastTransition haccepts hversion).2
  have hrun := he.run.complete (.install "bcm" bcmFirmware "3.0.0")
  rw [Operation.run, Persist.store_discard] at hrun
  generalize (install "bcm" bcmFirmware "3.0.0").store e = t at hrep hbehind hrun
  refine ⟨t, .A, hrun, ((rollback_condemns_iff t hrun .A ?_ ?_ (hbehind.present he.layout) _).2).mpr
    hrep.activeS⟩
  · exact hrep.pendingS
  · rw [hrep.confirmedS]
    exact fun h ↦ Slot.noConfusion h

/-- Power lost before the first boot: the recovery rejects the confirmed slot. -/
theorem unbooted_slot_not_condemned :
    ∃ e p, SlotRun e ∧ e.slotInfo.pendingSlot = some p ∧ p ≠ e.slotInfo.confirmedSlot ∧
      (∀ s, (e.slots s).layout ≠ none) ∧ ¬Condemned p "INCOMPLETE_FLASH_JOURNAL" e
        ((SlotManager.rollbackPending "INCOMPLETE_FLASH_JOURNAL").store e) := by
  have hversion : normalizeVersion "3.0.0" = .ok "3.0.0" := by rfl
  obtain ⟨e, he⟩ := exists_awaitsImage
  obtain ⟨metadata, haccepts⟩ := accepts_bareImage he.download
  obtain ⟨k, hinfo, hbehind⟩ :=
    exists_cut_staged "bcm" le_rfl he.represents he.lastTransition haccepts hversion
  have hrun := he.run.cut (.install "bcm" bcmFirmware "3.0.0") k
  rw [Operation.run, Persist.cutAfter_discard] at hrun
  generalize (install "bcm" bcmFirmware "3.0.0").cutAfter k e = t at hinfo hbehind hrun
  have hactive : t.slotInfo.activeSlot = .B := by
    rw [hinfo]
    exact he.represents.activeS
  have hpending : t.slotInfo.pendingSlot = some .A := by
    rw [hinfo, stagedInfo, EcuStore.target, he.represents.activeS]
    rfl
  have hne : Slot.A ≠ t.slotInfo.confirmedSlot := by
    rw [hinfo]
    exact fun h ↦ Slot.noConfusion (h.trans he.represents.confirmedS)
  refine ⟨t, .A, hrun, hpending, hne, hbehind.present he.layout, fun hcondemned ↦ ?_⟩
  have h := ((rollback_condemns_iff t hrun .A hpending hne (hbehind.present he.layout) _).2).mp
    hcondemned
  rw [hactive] at h
  cases h

end VehicleOta.Ecu
