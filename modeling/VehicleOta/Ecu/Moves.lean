import VehicleOta.Ecu.InstallSpec

/-!
# The moves of the records

A reboot and a rollback change the records by a few moves only, in whatever state they
start, and write no flash.  A property that every move keeps is kept by both.
-/

namespace VehicleOta.Ecu

open CrashLogic

/-- One write of a reboot or of a rollback, from any store. -/
inductive Move : EcuStore → EcuStore → Prop
  | quiet {e t : EcuStore} (h : e.Quiet t) : Move e t
  | openRecord (e : EcuStore) : Move e (e.setSlotInfo e.slotInfo)
  | activate (e : EcuStore) (p : Slot) : Move e (e.setSlotInfo (e.slotInfo.activatePending p))
  | rollback (e : EcuStore) (reason : String) :
      Move e (e.setSlotInfo (e.slotInfo.rollbackPending reason))
  | bootVersion (e : EcuStore) : Move e (e.setVersions e.versions.bootPending)
  | rollbackVersion (e : EcuStore) (reason : String) :
      Move e (e.setVersions (e.versions.rollbackPending reason))

abbrev Moves : EcuStore → EcuStore → Prop := Relation.ReflTransGen Move

theorem Move.sound {e t : EcuStore} (h : Move e t) (he : e.Sound) : t.Sound := by
  cases h with
  | quiet h => exact h.sound he
  | _ => exact he

theorem Moves.sound {e t : EcuStore} (h : Moves e t) (he : e.Sound) : t.Sound := by
  induction h with
  | refl => exact he
  | tail _ hmove ih => exact hmove.sound ih

/-- A write that moves the records and leaves the flash alone. -/
def MovingWrite (e : EcuStore) (i : EcuFile) (t : EcuStore) : Prop :=
  (∀ s, i ≠ .slot s .memory) ∧ Moves e t

/-- A program of such writes. -/
def Moving {α : Type} (m : EcuM α) : Prop :=
  ∀ e : EcuStore, e.Sound → m.returns (MovingWrite e) (fun _ t ↦ Moves e t) e

theorem movingWrite_of_quiet {e t u : EcuStore} {i : EcuFile} (h : Moves e t)
    (h' : t.QuietWrite i u) : MovingWrite e i u := by
  obtain ⟨⟨s, hi⟩, hq⟩ := h'
  refine ⟨?_, h.tail (.quiet hq)⟩
  rintro s' rfl
  rcases hi with hi | hi <;> cases hi

section Rules

variable {α β : Type}

theorem moving_pure (a : α) : Moving (pure a : EcuM α) :=
  fun _ _ ↦ (Persist.returns_pure a).mpr .refl

theorem moving_reads (f : EcuStore → α) : Moving (Persist.reads f : EcuM α) :=
  fun _ _ ↦ (Persist.returns_reads f).mpr .refl

theorem moving_bind {m : EcuM α} {f : α → EcuM β} (hm : Moving m) (hf : ∀ a, Moving (f a)) :
    Moving (m >>= f) := by
  intro e he
  refine Persist.returns_bind (hm e he) ?_
  intro a t ht
  exact Persist.returns_mono (hf a t (ht.sound he)) (fun _ _ hw ↦ ⟨hw.1, ht.trans hw.2⟩)
    fun _ _ hu ↦ ht.trans hu

theorem moving_ite {c : Prop} [Decidable c] {m n : EcuM α} (hm : Moving m) (hn : Moving n) :
    Moving (if c then m else n) := by
  split <;> assumption

/-- Known writes that move the records, and quiet ones behind the store `x`. -/
theorem returns_moves {m : EcuM α} {ws : List (Write EcuFile EcuStore)} {e x : EcuStore}
    {P : α → EcuStore → Prop} (h : m.performs ws x.QuietWrite P e) (hx : Moves e x)
    (hws : ∀ w ∈ ws, MovingWrite e w.1 w.2) (hP : ∀ a t, P a t → x.Quiet t) :
    m.returns (MovingWrite e) (fun _ t ↦ Moves e t) e :=
  (Persist.performs_mono h (fun _ _ hw ↦ movingWrite_of_quiet hx hw)
    fun a t ht ↦ hx.tail (.quiet (hP a t ht))).returns hws

end Rules

theorem movingWrite_slotState {e : EcuStore} {state : SlotState}
    (h : Move e (e.setSlotInfo state)) : MovingWrite e .slotState (e.setSlotInfo state) :=
  ⟨by rintro _ ⟨⟩, .single h⟩

theorem movingWrite_version {e : EcuStore} {data : VersionState}
    (h : Move e (e.setVersions data)) : MovingWrite e .version (e.setVersions data) :=
  ⟨by rintro _ ⟨⟩, .single h⟩

theorem movingWrite_opening (e : EcuStore) :
    ∀ w ∈ SlotManager.openingWrites e, MovingWrite e w.1 w.2 := by
  intro w hw
  rw [SlotManager.openingWrites] at hw
  split at hw
  · obtain rfl := List.mem_singleton.mp hw
    exact movingWrite_slotState (.openRecord e)
  · cases hw

theorem moving_loadState : Moving SlotManager.loadState := by
  intro e _
  have h := Persist.performs_mono (SlotManager.loadState_performs (e := e))
    (D := MovingWrite e) (fun _ _ ↦ False.elim) fun _ _ ↦ id
  refine Persist.returns_mono (h.returns (movingWrite_opening e)) (fun _ _ ↦ id) ?_
  rintro _ _ ⟨-, rfl⟩
  exact .single (.openRecord e)

theorem moving_activatePending : Moving SlotManager.activatePending := by
  intro e he
  cases hp : e.slotInfo.pendingSlot with
  | none =>
      have h := Persist.performs_mono (SlotManager.activatePending_none hp)
        (D := MovingWrite e) (fun _ _ ↦ False.elim) fun _ _ ↦ id
      refine Persist.returns_mono (h.returns (movingWrite_opening e)) (fun _ _ ↦ id) ?_
      rintro _ _ ⟨-, rfl⟩
      exact .single (.openRecord e)
  | some p =>
      have hwrite : MovingWrite e .slotState (e.setSlotInfo (e.slotInfo.activatePending p)) :=
        movingWrite_slotState (.activate e p)
      exact returns_moves (SlotManager.activatePending_some hp he) hwrite.2 (by simpa using hwrite)
        fun _ _ ht ↦ ht.2

theorem moving_rollbackPending (reason : String) : Moving (SlotManager.rollbackPending reason) := by
  intro e he
  have hwrite : MovingWrite e .slotState (e.setSlotInfo (e.slotInfo.rollbackPending reason)) :=
    movingWrite_slotState (.rollback e reason)
  refine returns_moves (SlotManager.rollbackPending_performs reason he) hwrite.2 ?_ fun _ _ ht ↦ ht
  intro w hw
  rcases List.mem_append.mp hw with hw | hw
  · exact movingWrite_opening e w hw
  · obtain rfl := List.mem_singleton.mp hw
    exact hwrite

theorem moving_rollbackPendingVersion (reason : String) :
    Moving (VersionManager.rollbackPendingVersion reason) := by
  intro e _
  have hwrite : MovingWrite e .version (e.setVersions (e.versions.rollbackPending reason)) :=
    movingWrite_version (.rollbackVersion e reason)
  exact (Persist.returns_reads_bind _).mpr ((Persist.returns_write_bind _ _).mpr
    ⟨hwrite, (Persist.returns_pure _).mpr hwrite.2⟩)

theorem moving_bootPendingVersion : Moving VersionManager.bootPendingVersion := by
  intro e _
  have hwrite : MovingWrite e .version (e.setVersions e.versions.bootPending) :=
    movingWrite_version (.bootVersion e)
  refine (Persist.returns_reads_bind _).mpr ?_
  split
  · exact (Persist.returns_pure _).mpr .refl
  · exact (Persist.returns_write_bind _ _).mpr ⟨hwrite, (Persist.returns_pure _).mpr hwrite.2⟩

theorem moving_rollback (reason : String) : Moving (RebootManager.rollback reason) :=
  moving_bind (moving_rollbackPendingVersion reason) fun _ ↦ moving_rollbackPending reason

theorem moving_hasPendingCommit : Moving VersionManager.hasPendingCommit :=
  moving_bind (moving_reads _) fun _ ↦ moving_pure _

theorem moving_pendingJournalRequiresRecovery :
    Moving SlotManager.pendingJournalRequiresRecovery := by
  refine moving_bind moving_loadState fun state ↦ ?_
  cases state.pendingSlot with
  | none => exact moving_pure _
  | some p => exact moving_reads _

theorem moving_attemptLimitExceeded : Moving RebootManager.attemptLimitExceeded :=
  moving_bind moving_hasPendingCommit fun _ ↦
    moving_ite (moving_bind moving_loadState fun _ ↦ moving_pure _) (moving_pure _)

theorem moving_boot : Moving RebootManager.boot :=
  moving_bind moving_hasPendingCommit fun _ ↦
    moving_ite (moving_bind moving_bootPendingVersion fun _ ↦ moving_activatePending)
      moving_activatePending

theorem moving_reboot : Moving RebootManager.reboot :=
  moving_bind moving_pendingJournalRequiresRecovery fun _ ↦
    moving_ite (moving_bind (moving_rollback _) fun _ ↦ moving_pure _)
      (moving_bind moving_attemptLimitExceeded fun _ ↦
        moving_ite (moving_bind (moving_rollback _) fun _ ↦ moving_pure _) moving_boot)

end VehicleOta.Ecu
