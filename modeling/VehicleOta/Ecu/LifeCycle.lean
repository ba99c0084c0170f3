import VehicleOta.Crash.TrialBoot
import VehicleOta.Ecu.Operations

/-!
# The fault-free life cycle

Run to completion, the operations of an ECU are those of a trial-boot updater whose slots
are `A` and `B`: both records describe the same confirmed image and the same trial.
-/

namespace VehicleOta.Ecu

open CrashLogic FirmwareInstaller TrialBoot

/-- Both records and the journal of the slot on trial describe the updater `a`. -/
structure Represents (m : ℕ) (a : State Slot String) (e : EcuStore) : Prop where
  sound : e.Sound
  slotState : e.slotState ≠ none
  limit : e.slotInfo.maxBootAttempts = m
  confirmedV : e.versions.confirmedSlot = a.confirmedSlot
  confirmedS : e.slotInfo.confirmedSlot = a.confirmedSlot
  version : e.versions.confirmedVersion = a.confirmedVersion
  activeV : e.versions.activeSlot = a.activeSlot
  activeS : e.slotInfo.activeSlot = a.activeSlot
  current : e.versions.currentVersion = a.currentVersion
  pendingV : e.versions.pendingSlot = a.trial.map Trial.slot
  pendingS : e.slotInfo.pendingSlot = a.trial.map Trial.slot
  commit : e.versions.pendingCommit = a.trial.isSome
  trial : ∀ t ∈ a.trial, e.versions.pendingVersion = t.version ∧ t.version ≠ "" ∧
    e.slotInfo.bootAttempts = t.boots ∧ (e.slots t.slot).incomplete = false

namespace Represents

variable {m : ℕ} {a : State Slot String} {e t : EcuStore}

theorem quiet (h : Represents m a e) (hq : e.Quiet t) : Represents m a t where
  sound := hq.sound h.sound
  slotState := hq.slotState ▸ h.slotState
  limit := hq.slotInfo ▸ h.limit
  confirmedV := hq.versions ▸ h.confirmedV
  confirmedS := hq.slotInfo ▸ h.confirmedS
  version := hq.versions ▸ h.version
  activeV := hq.versions ▸ h.activeV
  activeS := hq.slotInfo ▸ h.activeS
  current := hq.versions ▸ h.current
  pendingV := hq.versions ▸ h.pendingV
  pendingS := hq.slotInfo ▸ h.pendingS
  commit := hq.versions ▸ h.commit
  trial := by
    intro u hu
    obtain ⟨hversion, hne, hboots, hinc⟩ := h.trial u hu
    exact ⟨hq.versions ▸ hversion, hne, hq.slotInfo ▸ hboots, hq.incomplete hinc⟩

theorem rolledBack (h : Represents m a e) (reason : String) :
    Represents m (a.step m .reject) (e.rolledBack reason) where
  sound := h.sound
  slotState := by simp [EcuStore.rolledBack, EcuStore.setSlotInfo]
  limit := h.limit
  confirmedV := h.confirmedV
  confirmedS := h.confirmedS
  version := h.version
  activeV := h.confirmedV
  activeS := h.confirmedS
  current := h.version
  pendingV := rfl
  pendingS := rfl
  commit := rfl
  trial := by
    intro u hu
    cases hu

theorem confirmed {u : Trial Slot String} {normalized : String} (h : Represents m a e)
    (hu : a.trial = some u) :
    Represents m (a.step m (.confirm normalized)) (e.confirmed normalized) := by
  have hslot : e.versions.pendingSlot = some u.slot := by simp [h.pendingV, hu]
  have hactive : e.slotInfo.activeSlot = u.slot := by simp [h.activeS, State.activeSlot, hu]
  have hstep : a.step m (.confirm normalized) = ⟨u.slot, normalized, none⟩ := by
    simp [State.step, hu]
  rw [hstep]
  exact
    { sound := h.sound
      slotState := by simp [EcuStore.confirmed, EcuStore.setSlotInfo]
      limit := h.limit
      confirmedV := by simp [EcuStore.confirmed, VersionState.confirm, hslot]
      confirmedS := hactive
      version := rfl
      activeV := by simp [EcuStore.confirmed, VersionState.confirm, hslot, State.activeSlot]
      activeS := hactive
      current := rfl
      pendingV := rfl
      pendingS := rfl
      commit := rfl
      trial := by
        intro v hv
        cases hv }

/-- Another boot of the image on trial. -/
theorem booted {u : Trial Slot String} (h : Represents m a e) (hu : a.trial = some u)
    (hlimit : u.boots < m) : Represents m (a.step m .boot) (e.booted u.slot) := by
  obtain ⟨hversion, hne, hboots, hinc⟩ := h.trial u hu
  have hslot : e.versions.pendingSlot = some u.slot := by simp [h.pendingV, hu]
  have hstep : a.step m .boot = { a with trial := some { u with boots := u.boots + 1 } } := by
    simp [State.step, hu, hlimit]
  rw [hstep]
  exact
    { sound := h.sound
      slotState := by simp [EcuStore.booted, EcuStore.setSlotInfo]
      limit := h.limit
      confirmedV := h.confirmedV
      confirmedS := h.confirmedS
      version := h.version
      activeV := by simp [EcuStore.booted, VersionState.bootPending, hslot, State.activeSlot]
      activeS := rfl
      current := by simp [EcuStore.booted, VersionState.bootPending, hversion, State.currentVersion]
      pendingV := by simp [EcuStore.booted, VersionState.bootPending, hslot]
      pendingS := by simp [EcuStore.booted, SlotState.activatePending, h.pendingS, hu]
      commit := rfl
      trial := by
        rintro v hv
        obtain rfl := Option.some.inj hv
        exact ⟨hversion, hne, by simp [EcuStore.booted, SlotState.activatePending, hboots], hinc⟩ }

/-- The first boot of a staged image. -/
theorem staged {metadata : Firmware.FirmwareImageMetadata} {payload : Bytes}
    {firmwareFile : FirmwareFile} {targetVersion normalized : String} (h : Represents m a e)
    (hversion : normalizeVersion targetVersion = .ok normalized)
    (hstaged : Staged e metadata payload firmwareFile targetVersion normalized t) :
    Represents m (a.step m (.stage a.activeSlot.other normalized)) (t.booted e.target) := by
  have htarget : e.target = a.activeSlot.other := by rw [EcuStore.target, h.activeS]
  have hsound : t.Sound := hstaged.sound h.sound fun _ hd ↦ hd.1.sound
  have hV := hstaged.versions
  have hS := hstaged.slotInfo
  exact
    { sound := hsound
      slotState := by simp [EcuStore.booted, EcuStore.setSlotInfo]
      limit := by simpa [EcuStore.booted, SlotState.activatePending, hS, stagedInfo,
        SlotState.markPending] using h.limit
      confirmedV := by simpa [EcuStore.booted, VersionState.bootPending, hV, VersionState.pend,
        State.step] using h.confirmedV
      confirmedS := by simpa [EcuStore.booted, SlotState.activatePending, hS, stagedInfo,
        SlotState.markPending, State.step] using h.confirmedS
      version := by simpa [EcuStore.booted, VersionState.bootPending, hV, VersionState.pend,
        State.step] using h.version
      activeV := by simp [EcuStore.booted, VersionState.bootPending, hV, VersionState.pend,
        State.activeSlot, State.step, htarget]
      activeS := htarget
      current := by simp [EcuStore.booted, VersionState.bootPending, hV, VersionState.pend,
        State.currentVersion, State.step]
      pendingV := by simp [EcuStore.booted, VersionState.bootPending, hV, VersionState.pend,
        State.step, htarget]
      pendingS := by simp [EcuStore.booted, SlotState.activatePending, hS, stagedInfo,
        SlotState.markPending, State.step, htarget]
      commit := rfl
      trial := by
        rintro u hu
        obtain rfl := Option.some.inj hu
        refine ⟨?_, normalizeVersion_ne_empty hversion, ?_, ?_⟩
        · simp [EcuStore.booted, VersionState.bootPending, hV, VersionState.pend]
        · simp [EcuStore.booted, SlotState.activatePending, hS, stagedInfo, SlotState.markPending]
        · rw [← htarget]
          exact hstaged.target.2 }

end Represents

/-! ## The operations, run to completion -/

section Steps

variable {m : ℕ} {a : State Slot String} {e : EcuStore}

/-- What a completed reboot shows: the last attempt is a rollback, the others are boots. -/
def bootEvents (m : ℕ) (a : State Slot String) : List Transition :=
  match a.trial with
  | none => []
  | some t => if m ≤ t.boots then [.rolledBack] else [.bootedPending]

theorem reboot_observes (h : Represents m a e) :
    RebootManager.reboot.observes seeTransition (bootEvents m a) (fun _ _ ↦ True)
      (fun _ t ↦ Represents m (a.step m .boot) t) e := by
  cases ha : a.trial with
  | none =>
      have hidle := reboot_idle (e := e) (by simp [h.pendingS, ha]) (by simp [h.commit, ha])
      rw [SlotManager.openingWrites, if_neg h.slotState, EcuStore.setSlotInfo_slotInfo h.slotState]
        at hidle
      have hobs := hidle.observes seeTransition (D := fun _ _ ↦ True)
        (fun _ _ ↦ False.elim) (by simp) (by simp)
      have hstep : a.step m .boot = a := by simp [State.step, ha]
      rw [bootEvents, ha, hstep]
      refine Persist.observes_mono hobs (fun _ _ ↦ id) ?_
      rintro _ _ ⟨-, rfl⟩
      exact h
  | some u =>
      obtain ⟨hversion, hne, hboots, hinc⟩ := h.trial u ha
      have hpending : e.slotInfo.pendingSlot = some u.slot := by simp [h.pendingS, ha]
      have hcommit : e.versions.pendingCommit = true := by simp [h.commit, ha]
      by_cases hlimit : m ≤ u.boots
      · have hroll := reboot_limit hpending hinc hcommit (by rw [h.limit, hboots]; exact hlimit)
          h.sound
        have hobs := hroll.observes seeTransition (D := fun _ _ ↦ True)
          (fun _ _ ↦ seeTransition_quiet) (by simp) (by simp)
        have hstep : a.step m .boot = a.step m .reject := by simp [State.step, ha, hlimit]
        rw [bootEvents, ha, hstep]
        simp only [if_pos hlimit]
        refine Persist.observes_mono hobs (fun _ _ ↦ id) ?_
        rintro _ t ⟨-, ht⟩
        exact (h.rolledBack _).quiet ht
      · have hlt : u.boots < m := Nat.lt_of_not_le hlimit
        have hboot := reboot_boots hpending hinc hcommit (hversion ▸ hne)
          (by rw [h.limit, hboots]; exact hlt) h.sound
        have hobs := hboot.observes seeTransition (D := fun _ _ ↦ True)
          (fun _ _ ↦ seeTransition_quiet) (by simp) (by simp)
        rw [bootEvents, ha]
        simp only [if_neg hlimit]
        refine Persist.observes_mono hobs (fun _ _ ↦ id) ?_
        rintro _ t ⟨-, ht⟩
        exact (h.booted ha hlt).quiet ht

theorem confirm_observes {actual normalized : String} (h : Represents m a e)
    (ha : a.trial.isSome) (hversion : normalizeVersion actual = .ok normalized) :
    (PostInstallValidator.confirm actual).observes seeTransition [.confirmed] (fun _ _ ↦ True)
      (fun _ t ↦ Represents m (a.step m (.confirm normalized)) t) e := by
  obtain ⟨u, hu⟩ := Option.isSome_iff_exists.mp ha
  have hconfirm := confirm_performs_pending hversion (p := u.slot) (by simp [h.pendingS, hu]) h.sound
  refine Persist.observes_mono (hconfirm.observes seeTransition (D := fun _ _ ↦ True)
    (fun _ _ ↦ seeTransition_quiet) (by simp) (by simp)) (fun _ _ ↦ id) ?_
  intro _ t ht
  exact (h.confirmed hu).quiet ht

theorem rollback_observes (h : Represents m a e) (ha : a.trial.isSome) :
    PostInstallValidator.rollback.observes seeTransition [.rolledBack] (fun _ _ ↦ True)
      (fun _ t ↦ Represents m (a.step m .reject) t) e := by
  obtain ⟨u, hu⟩ := Option.isSome_iff_exists.mp ha
  have hroll := rollback_performs_pending "POST_INSTALL_VALIDATION_FAILED" (p := u.slot)
    (by simp [h.pendingS, hu]) h.sound
  refine Persist.observes_mono (hroll.observes seeTransition (D := fun _ _ ↦ True)
    (fun _ _ ↦ seeTransition_quiet) (by simp) (by simp)) (fun _ _ ↦ id) ?_
  intro _ t ht
  exact (h.rolledBack _).quiet ht

variable {metadata : Firmware.FirmwareImageMetadata} {payload : Bytes}
  {firmwareFile : FirmwareFile} {ecuName targetVersion normalized : String} {u : EcuStore}

/-- What a staged store lets the next reboot see. -/
theorem staged_reboots (hm : 1 ≤ e.slotInfo.maxBootAttempts) (he : e.Sound)
    (hversion : normalizeVersion targetVersion = .ok normalized)
    (h : Staged e metadata payload firmwareFile targetVersion normalized u) :
    RebootManager.reboot.performs
      [(.version, u.setVersions u.versions.bootPending), (.slotState, u.booted e.target)]
      (u.booted e.target).QuietWrite
      (fun r t ↦ r = some e.target ∧ (u.booted e.target).Quiet t) u := by
  apply reboot_boots
  · rw [h.slotInfo]
    rfl
  · exact h.target.2
  · rw [h.versions]
    rfl
  · rw [h.versions]
    exact normalizeVersion_ne_empty hversion
  · rw [h.slotInfo]
    exact hm
  · exact h.sound he fun _ hd ↦ hd.1.sound

theorem install_observes (ecuName : String) (hm : 1 ≤ m) (h : Represents m a e)
    (haccepts : Accepts e firmwareFile metadata payload)
    (hversion : normalizeVersion targetVersion = .ok normalized) :
    (install ecuName firmwareFile targetVersion).observes seeTransition
      [.staged, .bootedPending] (fun _ _ ↦ True)
      (fun _ t ↦ Represents m (a.step m (.stage a.activeSlot.other normalized)) t) e := by
  obtain ⟨image, hdownload, hextract⟩ := haccepts
  have hlegacy := removeLegacyInstall_returns firmwareFile (e := e)
  rw [install, ← List.nil_append [_, _]]
  refine Persist.observes_bind (Persist.observes_mono (Persist.observes_of_returns hlegacy
    (by rintro _ _ ⟨rfl, -⟩; rfl)) (fun _ _ _ ↦ trivial) fun _ _ ↦ id) ?_
  intro _ u hu
  have hrep : Represents m a u := h.quiet hu.quiet
  have hdown : u.downloads firmwareFile = some image := by
    obtain ⟨installed, rfl⟩ := hu
    exact hdownload
  -- the checks on the download write nothing
  rw [← List.nil_append [_, _]]
  refine Persist.observes_bind (Persist.observes_mono (Persist.observes_of_returns
    (readDownload_returns hdown (C := fun _ _ ↦ False)) fun _ _ ↦ False.elim)
    (fun _ _ ↦ False.elim) fun _ _ ↦ id) ?_
  rintro _ _ ⟨rfl, rfl⟩
  rw [← List.nil_append [_, _], hextract]
  refine Persist.observes_bind (P := fun p t ↦ p = (metadata, payload) ∧ t = _)
    ⟨(Persist.returns_ofExcept _).mpr ⟨_, rfl, rfl, rfl⟩, rfl⟩ ?_
  rintro _ _ ⟨rfl, rfl⟩
  have hstage := stageImage_observes ecuName hrep.sound (describes_of_extract hextract)
    hdown hversion
  rw [SlotManager.openingWrites, if_neg hrep.slotState] at hstage
  rw [show [Transition.staged, .bootedPending] = [.staged] ++ [.bootedPending] from rfl]
  refine Persist.observes_bind (Persist.observes_mono hstage (fun _ _ _ ↦ trivial)
    fun _ _ ↦ id) ?_
  intro _ v hv
  have hreboot := staged_reboots (by rw [hrep.limit]; exact hm) hrep.sound hversion hv
  rw [← List.append_nil [Transition.bootedPending]]
  refine Persist.observes_bind (hreboot.observes seeTransition (D := fun _ _ ↦ True)
    (fun _ _ ↦ seeTransition_quiet) (by simp) (by simp)) ?_
  rintro _ t ⟨-, ht⟩
  exact ⟨(Persist.returns_pure _).mpr ((hrep.staged hversion hv).quiet ht), rfl⟩

/-- An installation that completes has accepted its image and its version. -/
theorem accepts_of_complete {r : Bool} (he : e.Sound)
    (h : ((install ecuName firmwareFile targetVersion) e).result = .ok r) :
    ∃ metadata payload normalized, Accepts e firmwareFile metadata payload ∧
      normalizeVersion targetVersion = .ok normalized := by
  have hwp : (install ecuName firmwareFile targetVersion).wp (fun _ _ ↦ True)
      (fun r _ ↦ ∀ b, r = .ok b → ∃ metadata payload normalized,
        Accepts e firmwareFile metadata payload ∧
          normalizeVersion targetVersion = .ok normalized) e := by
    apply install_wp
    · exact fun _ _ ↦ trivial
    · intro err u _ _ b hb
      cases hb
    · intro metadata payload u haccepts hu
      cases hversion : normalizeVersion targetVersion with
      | ok normalized =>
          exact ⟨fun _ _ ↦ trivial, fun _ _ ↦ ⟨_, _, normalized, haccepts, rfl⟩⟩
      | error err =>
          obtain ⟨image, hdownload, hextract⟩ := haccepts
          have hdown : u.downloads firmwareFile = some image := by
            obtain ⟨installed, rfl⟩ := hu
            exact hdownload
          have hraise := stageImage_raises ecuName (hu.quiet.sound he)
            (describes_of_extract hextract) hdown hversion
          rw [Persist.wp_bind]
          refine Persist.wp_mono hraise (fun _ _ _ ↦ trivial) ?_
          rintro _ t ⟨rfl, -⟩ b hb
          cases hb
  exact hwp.2 r h

end Steps

/-! ## Runs -/

/-- The stores and the transitions of a run of complete operations.  A delivered ECU without
`slot_state.json` begins it when `_load_state` has written the default state. -/
inductive LifeCycle (m : ℕ) : EcuStore → List Transition → Prop
  | fresh {e : EcuStore} (h : Fresh m e) (hstored : e.slotState ≠ none) : LifeCycle m e []
  | step {e : EcuStore} {log : List Transition} (op : Operation) (h : LifeCycle m e log)
      (hguard : op.Guarded e) (hcomplete : (op.run e).result = .ok ⟨⟩) :
      LifeCycle m (op.run.store e) (log ++ op.run.observe seeTransition e)

/-- The boots of the image staged last. -/
def bootsSinceStaging (log : List Transition) : ℕ :=
  log.foldl (fun n t ↦ match t with
    | .staged => 0
    | .bootedPending => n + 1
    | _ => n) 0

/-- How a complete operation moves the updater, and the transitions that it shows. -/
inductive Follows (m : ℕ) (a : State Slot String) : List Transition → State Slot String → Prop
  | stutter : Follows m a [] a
  | stage (slot : Slot) (version : String) :
      Follows m a [.staged, .bootedPending] (a.step m (.stage slot version))
  | boot : Follows m a (bootEvents m a) (a.step m .boot)
  | confirm (version : String) : Follows m a [.confirmed] (a.step m (.confirm version))
  | reject : Follows m a [.rolledBack] (a.step m .reject)

/-- The simulation: every complete operation is a step of the updater. -/
theorem operation_follows {m : ℕ} {a : State Slot String} {e : EcuStore} (hm : 1 ≤ m)
    (h : Represents m a e) (op : Operation) (hguard : op.Guarded e)
    (hcomplete : (op.run e).result = .ok ⟨⟩) :
    ∃ a', Follows m a (op.run.observe seeTransition e) a' ∧ Represents m a' (op.run.store e) := by
  have hsome : e.versions.pendingCommit = true → a.trial.isSome := fun hc ↦ h.commit ▸ hc
  -- a specification of the operation gives its events and its store
  have hdone : ∀ {α : Type} {p : EcuM α} {events} {a' : State Slot String},
      p.observes seeTransition events (fun _ _ ↦ True) (fun _ t ↦ Represents m a' t) e →
      Persist.observe seeTransition (do let _ ← p; return PUnit.unit) e = events ∧
        Represents m a' (Persist.store (do let _ ← p; return PUnit.unit) e) := by
    intro α p events a' hp
    have hmap := Persist.observes_bind (f := fun _ ↦ (pure PUnit.unit : EcuM PUnit))
      (R := fun _ t ↦ Represents m a' t) hp fun _ t ht ↦ ⟨(Persist.returns_pure _).mpr ht, rfl⟩
    rw [List.append_nil] at hmap
    obtain ⟨_, _, hrep⟩ := Persist.returns_run hmap.1
    exact ⟨hmap.2, hrep⟩
  cases op with
  | download firmwareFile content =>
      refine ⟨a, .stutter, h.quiet ⟨rfl, rfl, fun _ ↦ .refl _⟩⟩
  | install ecuName firmwareFile targetVersion =>
      obtain ⟨r, hr⟩ : ∃ r, (install ecuName firmwareFile targetVersion e).result = .ok r := by
        cases hr : (install ecuName firmwareFile targetVersion e).result with
        | ok r => exact ⟨r, rfl⟩
        | error err =>
            simp only [Operation.run, bind, hr] at hcomplete
            cases hcomplete
      obtain ⟨metadata, payload, normalized, haccepts, hversion⟩ := accepts_of_complete h.sound hr
      obtain ⟨hevents, hrep⟩ := hdone (install_observes ecuName hm h haccepts hversion)
      exact ⟨_, by rw [Operation.run, hevents]; exact .stage _ _, hrep⟩
  | reboot =>
      obtain ⟨hevents, hrep⟩ := hdone (reboot_observes h)
      exact ⟨_, by rw [Operation.run, hevents]; exact .boot, hrep⟩
  | confirm actual =>
      obtain ⟨normalized, hversion⟩ : ∃ normalized, normalizeVersion actual = .ok normalized := by
        cases hv : normalizeVersion actual with
        | ok normalized => exact ⟨normalized, rfl⟩
        | error err =>
            simp only [Operation.run, PostInstallValidator.confirm, VersionManager.confirmVersion,
              hv, Persist.ofExcept, bind] at hcomplete
            cases hcomplete
      obtain ⟨hspec, hevents⟩ := confirm_observes h (hsome hguard) hversion
      obtain ⟨_, _, hrep⟩ := Persist.returns_run hspec
      exact ⟨_, by rw [Operation.run, hevents]; exact .confirm _, hrep⟩
  | rollback =>
      obtain ⟨hspec, hevents⟩ := rollback_observes h (hsome hguard)
      obtain ⟨_, _, hrep⟩ := Persist.returns_run hspec
      exact ⟨_, by rw [Operation.run, hevents]; exact .reject, hrep⟩

/-- The log counts the boots of the image on trial, and has never counted more than `m`. -/
structure Counted (m : ℕ) (log : List Transition) (a : State Slot String) : Prop where
  trial : ∀ t ∈ a.trial, bootsSinceStaging log = t.boots
  bound : ∀ pre, pre <+: log → bootsSinceStaging pre ≤ m

@[simp] theorem bootsSinceStaging_append (log : List Transition) (t : Transition) :
    bootsSinceStaging (log ++ [t]) = match t with
      | .staged => 0
      | .bootedPending => bootsSinceStaging log + 1
      | _ => bootsSinceStaging log := by
  rw [bootsSinceStaging, List.foldl_append]
  rfl

theorem Counted.append {m : ℕ} {log : List Transition} {a a' : State Slot String} {t : Transition}
    (h : Counted m log a) (htrial : ∀ u ∈ a'.trial, bootsSinceStaging (log ++ [t]) = u.boots)
    (hbound : bootsSinceStaging (log ++ [t]) ≤ m) : Counted m (log ++ [t]) a' := by
  refine ⟨htrial, ?_⟩
  intro pre hpre
  rcases List.prefix_concat_iff.mp hpre with rfl | hpre
  · exact hbound
  · exact h.bound pre hpre

theorem Counted.follows {m : ℕ} {log events : List Transition} {a a' : State Slot String}
    (hm : 1 ≤ m) (h : Counted m log a) (hf : Follows m a events a') :
    Counted m (log ++ events) a' := by
  cases hf with
  | stutter => simpa using h
  | stage slot version =>
      have hstaged : Counted m (log ++ [.staged]) { a with trial := none } :=
        h.append (by simp) (by simp)
      have hcount : bootsSinceStaging (log ++ [.staged] ++ [.bootedPending]) = 1 := by
        rw [bootsSinceStaging_append, bootsSinceStaging_append]
      have hbooted : Counted m (log ++ [.staged] ++ [.bootedPending])
          (a.step m (.stage slot version)) :=
        hstaged.append (by rw [hcount]; simp [State.step]) (hcount.le.trans hm)
      rwa [List.append_assoc] at hbooted
  | boot =>
      cases ha : a.trial with
      | none => simpa [bootEvents, State.step, ha] using h
      | some t =>
          have hcount := h.trial t ha
          by_cases hlimit : m ≤ t.boots
          · have hstep : a.step m .boot = { a with trial := none } :=
              State.step_boot_of_exhausted ha hlimit
            have hevents : bootEvents m a = [.rolledBack] := by simp [bootEvents, ha, hlimit]
            rw [hstep, hevents]
            exact h.append (by simp) (by simpa using h.bound log List.prefix_rfl)
          · have hstep : a.step m .boot = { a with trial := some { t with boots := t.boots + 1 } } := by
              simp [State.step, ha, hlimit]
            have hevents : bootEvents m a = [.bootedPending] := by simp [bootEvents, ha, hlimit]
            rw [hstep, hevents]
            exact h.append (by simpa using hcount) (by simp; omega)
  | confirm version =>
      refine h.append ?_ (by simpa using h.bound log List.prefix_rfl)
      intro t ht
      cases ha : a.trial <;> simp [State.step, ha] at ht
  | reject => exact h.append (by simp [State.step]) (by simpa using h.bound log List.prefix_rfl)

theorem Fresh.represents {m : ℕ} {e : EcuStore} (h : Fresh m e) (hstored : e.slotState ≠ none) :
    Represents m ⟨.A, "1.0.0", none⟩ e :=
  { sound := h.sound
    slotState := hstored
    limit := by rw [h.slotInfo]
    confirmedV := by rw [h.versions]
    confirmedS := by rw [h.slotInfo]
    version := by rw [h.versions]
    activeV := by rw [h.versions]; rfl
    activeS := by rw [h.slotInfo]; rfl
    current := by rw [h.versions]; rfl
    pendingV := by rw [h.versions]; rfl
    pendingS := by rw [h.slotInfo]; rfl
    commit := by rw [h.versions]; rfl
    trial := by
      intro t ht
      cases ht }

theorem LifeCycle.represents {m : ℕ} {e : EcuStore} {log : List Transition} (hm : 1 ≤ m)
    (h : LifeCycle m e log) : ∃ a, Represents m a e ∧ Counted m log a := by
  induction h with
  | fresh h hstored => exact ⟨_, h.represents hstored, by simp, by simp [bootsSinceStaging]⟩
  | step op _ hguard hcomplete ih =>
      obtain ⟨a, hrep, hcount⟩ := ih
      obtain ⟨a', hfollows, hrep'⟩ := operation_follows hm hrep op hguard hcomplete
      exact ⟨a', hrep', hcount.follows hm hfollows⟩

/-- The invariants of the fault-free life cycle. -/
theorem lifeCycle_lockstep (m : ℕ) (hm : 1 ≤ m) (e : EcuStore) (log : List Transition)
    (h : LifeCycle m e log) :
    (e.versions.activeSlot = e.slotInfo.activeSlot ∧
      e.versions.confirmedSlot = e.slotInfo.confirmedSlot ∧
      e.versions.pendingSlot = e.slotInfo.pendingSlot) ∧
    (e.versions.pendingCommit = true ↔ e.versions.pendingSlot ≠ none) ∧
    (e.versions.pendingSlot = none → e.versions.activeSlot = e.versions.confirmedSlot ∧
      e.versions.currentVersion = e.versions.confirmedVersion) ∧
    (∀ pre, pre <+: log → bootsSinceStaging pre ≤ m) ∧
    (e.versions.pendingSlot ≠ none → bootsSinceStaging log = m →
      ((RebootManager.reboot e).result.isOk ∧
        (RebootManager.reboot.store e).versions.activeSlot = e.versions.confirmedSlot ∧
        (RebootManager.reboot.store e).versions.confirmedSlot = e.versions.confirmedSlot ∧
        (RebootManager.reboot.store e).slotInfo.activeSlot = e.slotInfo.confirmedSlot ∧
        (RebootManager.reboot.store e).slotInfo.confirmedSlot = e.slotInfo.confirmedSlot ∧
        (RebootManager.reboot.store e).versions.currentVersion = e.versions.confirmedVersion)) := by
  obtain ⟨a, hrep, hcount⟩ := h.represents hm
  refine ⟨⟨?_, ?_, ?_⟩, ?_, ?_, hcount.bound, ?_⟩
  · rw [hrep.activeV, hrep.activeS]
  · rw [hrep.confirmedV, hrep.confirmedS]
  · rw [hrep.pendingV, hrep.pendingS]
  · rw [hrep.commit, hrep.pendingV]
    cases a.trial <;> simp
  · intro hnone
    have ha : a.trial = none := by simpa [hrep.pendingV] using hnone
    rw [hrep.activeV, hrep.confirmedV, hrep.current, hrep.version]
    simp [State.activeSlot, State.currentVersion, ha]
  · intro hpending hboots
    obtain ⟨t, ha⟩ : ∃ t, a.trial = some t := by
      cases ha : a.trial with
      | none => simp [hrep.pendingV, ha] at hpending
      | some t => exact ⟨t, rfl⟩
    have hexhausted : m ≤ t.boots := by
      have := hcount.trial t ha
      omega
    obtain ⟨_, hok, hrep'⟩ := Persist.returns_run (reboot_observes hrep).1
    rw [State.step_boot_of_exhausted ha hexhausted] at hrep'
    refine ⟨by rw [hok]; rfl, ?_, ?_, ?_, ?_, ?_⟩
    · rw [hrep'.activeV, hrep.confirmedV]; rfl
    · rw [hrep'.confirmedV, hrep.confirmedV]
    · rw [hrep'.activeS, hrep.confirmedS]; rfl
    · rw [hrep'.confirmedS, hrep.confirmedS]
    · rw [hrep'.current, hrep.version]; rfl

/-- The first installation of a delivered ECU. -/
theorem installed_deliveredEcu :
    (install "bcm" bcmFirmware "2.0.0").observes seeTransition [.staged, .bootedPending]
      (fun _ _ ↦ True) (fun _ t ↦ Represents 1 ⟨.A, "1.0.0", some ⟨.B, "2.0.0", 1⟩⟩ t)
      deliveredEcu := by
  obtain ⟨metadata, haccepts⟩ := accepts_bareImage (e := deliveredEcu) (b := 0) rfl
  exact install_observes "bcm" le_rfl (fresh_deliveredEcu.represents (by simp [deliveredEcu])) haccepts
    (show normalizeVersion "2.0.0" = .ok "2.0.0" by rfl)

/-- It completes, and the reboot behind its only boot rolls it back. -/
theorem lifeCycle_lockstep_delivered :
    let e := (Operation.install "bcm" bcmFirmware "2.0.0").run.store deliveredEcu
    e.versions.activeSlot = e.slotInfo.activeSlot ∧
      (RebootManager.reboot.store e).versions.activeSlot = e.versions.confirmedSlot ∧
      (RebootManager.reboot.store e).versions.currentVersion = e.versions.confirmedVersion := by
  have hrun : (Operation.install "bcm" bcmFirmware "2.0.0").run.observes seeTransition
      [.staged, .bootedPending] (fun _ _ ↦ True)
      (fun _ t ↦ Represents 1 ⟨.A, "1.0.0", some ⟨.B, "2.0.0", 1⟩⟩ t) deliveredEcu := by
    rw [← List.append_nil [Transition.staged, .bootedPending]]
    exact Persist.observes_bind installed_deliveredEcu
      fun _ t ht ↦ ⟨(Persist.returns_pure _).mpr ht, rfl⟩
  obtain ⟨_, hcomplete, hrep⟩ := Persist.returns_run hrun.1
  have hcycle := LifeCycle.step (.install "bcm" bcmFirmware "2.0.0")
    (.fresh fresh_deliveredEcu (by simp [deliveredEcu])) trivial hcomplete
  have h := lifeCycle_lockstep 1 le_rfl _ _ hcycle
  have hpending : ((Operation.install "bcm" bcmFirmware "2.0.0").run.store
      deliveredEcu).versions.pendingSlot ≠ none := by
    rw [hrep.pendingV]
    exact Option.some_ne_none _
  obtain ⟨-, hV, -, -, -, hcurrent⟩ := h.2.2.2.2 hpending (by rw [hrun.2]; rfl)
  exact ⟨h.1.1, hV, hcurrent⟩

end VehicleOta.Ecu
