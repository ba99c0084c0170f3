import VehicleOta.Ecu.OverlappedReboot

/-!
# Runs with overlapping validations

An installation stages its image and reboots; the TCU validates as soon as it sees the version.
Both records agree behind an overlap if and only if no slot was committed that was not active yet.
-/

namespace VehicleOta.Ecu

open CrashLogic FirmwareInstaller ThreadLogic ManagerCall

/-! ## The order of the two slot calls -/

theorem activatedFirst_append (calls : List ManagerCall) (c : ManagerCall) :
    ActivatedFirst (calls ++ [c]) ↔
      ActivatedFirst calls ∧ (c = commitPending → activatePending ∈ calls) := by
  constructor
  · intro h
    refine ⟨fun before later hcalls ↦ ?_, fun hc ↦ ?_⟩
    · exact h before (later ++ [c]) (by rw [hcalls, List.append_assoc, List.cons_append])
    · exact h calls [] (by rw [hc])
  · rintro ⟨h, hlast⟩ before later hcalls
    rcases List.eq_nil_or_concat later with rfl | ⟨later, d, rfl⟩
    · obtain ⟨rfl, hc⟩ := List.append_inj' hcalls rfl
      exact hlast (List.cons.inj hc).1
    · rw [List.concat_eq_append, ← List.cons_append, ← List.append_assoc] at hcalls
      exact h before later (List.append_inj' hcalls rfl).1

theorem SlotPhase.step_of_ne {c : ManagerCall} (hactivate : c ≠ activatePending)
    (hcommit : c ≠ commitPending) (phase : SlotPhase) : phase.step c = phase := by
  cases c with
  | activatePending => exact absurd rfl hactivate
  | commitPending => exact absurd rfl hcommit
  | _ => rfl

theorem Phase.slot_step (phase : Phase) (c : ManagerCall) :
    (phase.step c).slot = phase.slot.step c := by
  cases c <;> rfl

/-- What a phase of the slot tells about the calls. -/
inductive Seen (calls : List ManagerCall) : SlotPhase → Prop
  | pending (hactivate : activatePending ∉ calls) (hfirst : ActivatedFirst calls) :
      Seen calls .pending
  | activated (hactivate : activatePending ∈ calls) (hfirst : ActivatedFirst calls) :
      Seen calls .activated
  | stale (hfirst : ¬ActivatedFirst calls) : Seen calls .stale
  | committed (hactivate : activatePending ∈ calls) (hfirst : ActivatedFirst calls) :
      Seen calls .committed

theorem seen_after (calls : List ManagerCall) : Seen calls (Phase.after calls).slot := by
  induction calls using List.reverseRecOn with
  | nil =>
      refine .pending List.not_mem_nil fun before later hcalls ↦ ?_
      cases before <;> cases hcalls
  | append_singleton calls c ih =>
      rw [Phase.after_append, Phase.slot_step]
      have hfirst := activatedFirst_append calls c
      generalize (Phase.after calls).slot = phase at ih ⊢
      by_cases hactivate : c = activatePending
      · subst hactivate
        have hmem : activatePending ∈ calls ++ [activatePending] := by simp
        cases ih with
        | pending _ h => exact .activated hmem (hfirst.mpr ⟨h, by simp⟩)
        | activated _ h => exact .activated hmem (hfirst.mpr ⟨h, by simp⟩)
        | stale h => exact .stale fun h' ↦ h (hfirst.mp h').1
        | committed _ h => exact .committed hmem (hfirst.mpr ⟨h, by simp⟩)
      by_cases hcommit : c = commitPending
      · subst hcommit
        cases ih with
        | pending hnot _ => exact .stale fun h' ↦ hnot ((hfirst.mp h').2 rfl)
        | activated hmem h =>
            exact .committed (List.mem_append_left _ hmem) (hfirst.mpr ⟨h, fun _ ↦ hmem⟩)
        | stale h => exact .stale fun h' ↦ h (hfirst.mp h').1
        | committed hmem h =>
            exact .committed (List.mem_append_left _ hmem) (hfirst.mpr ⟨h, fun _ ↦ hmem⟩)
      · rw [SlotPhase.step_of_ne hactivate hcommit]
        have hkept : ActivatedFirst calls → ActivatedFirst (calls ++ [c]) :=
          fun h ↦ hfirst.mpr ⟨h, fun hc ↦ absurd hc hcommit⟩
        cases ih with
        | pending hnot h =>
            refine .pending ?_ (hkept h)
            simp only [List.mem_append, List.mem_singleton, not_or]
            exact ⟨hnot, Ne.symm hactivate⟩
        | activated hmem h => exact .activated (List.mem_append_left _ hmem) (hkept h)
        | stale h => exact .stale fun h' ↦ h (hfirst.mp h').1
        | committed hmem h => exact .committed (List.mem_append_left _ hmem) (hkept h)

theorem Seen.activatedFirst {calls : List ManagerCall} {phase : SlotPhase} (h : Seen calls phase)
    (hphase : phase ≠ .stale) : ActivatedFirst calls := by
  cases h with
  | stale => exact absurd rfl hphase
  | _ => assumption

/-! ## Both threads -/

/-- The reboot has made its calls alone so far. -/
structure Waiting (p : Slot) (calls : List ManagerCall)
    (config : Config ManagerCall.Answer EcuStore) : Prop where
  right : config.right = .done
  confirmed : (Phase.after calls).confirmed = false
  records : Records p (Phase.after calls) config.store
  left : ∃ activated, RebootAt config.left activated ∧
    Reached activated false (Phase.after calls).slot

/-- The reboot and the validation of the version `actual`. -/
structure Joint (p : Slot) (actual : String) (calls : List ManagerCall)
    (config : Config ManagerCall.Answer EcuStore) : Prop where
  records : Records p (Phase.after calls) config.store
  threads : ∃ activated committed, RebootAt config.left activated ∧
    ValidateAt actual config.right (Phase.after calls).confirmed committed ∧
    Reached activated committed (Phase.after calls).slot

section Threads

variable {p : Slot} {actual normalized : String} {before calls : List ManagerCall}
  {c : ManagerCall} {config config' : Config ManagerCall.Answer EcuStore} {u s : EcuStore}

theorem Waiting.step (h : Waiting p calls config) (hstep : Step exec config c config') :
    Waiting p (calls ++ [c]) config' := by
  obtain ⟨left, right, s⟩ := config
  obtain ⟨activated, hleft, hreached⟩ := h.left
  rcases hstep.cases_left_or_right with ⟨next, hnext, rfl⟩ | ⟨next, hnext, -⟩
  · obtain ⟨activated', hleft', hreached', hconfirmed, hrecords⟩ := hleft.call hnext hreached h.records
    rw [← Phase.after_append] at hreached' hconfirmed hrecords
    exact ⟨h.right, hconfirmed.trans h.confirmed, hrecords, activated', hleft', hreached'⟩
  · cases h.right.symm.trans hnext

theorem Joint.step (hversion : normalizeVersion actual = .ok normalized)
    (h : Joint p actual calls config) (hstep : Step exec config c config') :
    Joint p actual (calls ++ [c]) config' := by
  obtain ⟨left, right, s⟩ := config
  obtain ⟨activated, committed, hleft, hright, hreached⟩ := h.threads
  rcases hstep.cases_left_or_right with ⟨next, hnext, rfl⟩ | ⟨next, hnext, rfl⟩
  · obtain ⟨activated', hleft', hreached', hconfirmed, hrecords⟩ := hleft.call hnext hreached h.records
    rw [← hconfirmed] at hright
    rw [← Phase.after_append] at hreached' hright hrecords
    exact ⟨hrecords, activated', committed, hleft', hright, hreached'⟩
  · obtain ⟨committed', hright', hreached', hrecords⟩ :=
      hright.call hversion hnext hreached h.records
    rw [← Phase.after_append] at hreached' hright' hrecords
    exact ⟨hrecords, activated, committed', hleft, hright', hreached'⟩

theorem waiting_start (h : Records p ⟨false, .pending⟩ u) :
    Waiting p [] ⟨RebootManager.rebootThread, .done, u⟩ :=
  ⟨rfl, rfl, h, false, .journal, .pending⟩

theorem Waiting.validate {left : ManagerThread} (h : Waiting p calls ⟨left, .done, s⟩) :
    Joint p actual calls ⟨left, PostInstallValidator.validateThread true actual, s⟩ := by
  obtain ⟨activated, hleft, hreached⟩ := h.left
  refine ⟨h.records, activated, false, hleft, ?_, hreached⟩
  rw [h.confirmed]
  exact .start

theorem RebootAt.activated_of_done {thread : ManagerThread} {activated : Bool}
    (h : RebootAt thread activated) (hthread : thread = .done) : activated = true := by
  cases h with
  | showVersion => rfl
  | done => rfl
  | _ => cases hthread

theorem ValidateAt.committed_of_done {thread : ManagerThread} {confirmed committed : Bool}
    (h : ValidateAt actual thread confirmed committed) (hthread : thread = .done) :
    confirmed = true ∧ committed = true := by
  cases h with
  | done => exact ⟨rfl, rfl⟩
  | _ => cases hthread

end Threads

/-! ## Agreement -/

/-- Both managers name the same slots. -/
def EcuStore.SameSlots (t : EcuStore) : Prop :=
  t.versions.activeSlot = t.slotInfo.activeSlot ∧
    t.versions.confirmedSlot = t.slotInfo.confirmedSlot ∧
    t.versions.pendingSlot = t.slotInfo.pendingSlot

theorem Records.sameSlots_of_committed {p : Slot} {t : EcuStore}
    (h : Records p ⟨true, .committed⟩ t) : t.SameSlots := by
  have hversion := h.versionConfirmed rfl
  cases h.slot with
  | committed hpending hactive hconfirmed =>
      exact ⟨hversion.activeSlot.trans hactive.symm, hversion.confirmedSlot.trans hconfirmed.symm,
        hversion.pendingSlot.trans hpending.symm⟩

theorem Records.not_sameSlots_of_stale {p : Slot} {t : EcuStore} (h : Records p ⟨true, .stale⟩ t) :
    ¬t.SameSlots := by
  rintro ⟨hsame, -, -⟩
  rw [(h.versionConfirmed rfl).activeSlot] at hsame
  cases h.slot with
  | stale hpending hactive => exact Slot.ne_other p (hsame.trans hactive)

theorem Joint.sameSlots_iff {p : Slot} {actual : String} {calls : List ManagerCall} {t : EcuStore}
    (h : Joint p actual calls ⟨.done, .done, t⟩) : t.SameSlots ↔ ActivatedFirst calls := by
  obtain ⟨activated, committed, hleft, hright, hreached⟩ := h.threads
  obtain rfl := hleft.activated_of_done rfl
  obtain ⟨hconfirmed, rfl⟩ := hright.committed_of_done rfl
  have hseen := seen_after calls
  have hrecords : Records p ⟨true, (Phase.after calls).slot⟩ t := hconfirmed ▸ h.records
  generalize (Phase.after calls).slot = phase at hseen hreached hrecords
  cases hreached with
  | stale =>
      cases hseen with
      | stale hfirst => exact ⟨fun hsame ↦ absurd hsame hrecords.not_sameSlots_of_stale,
          fun hfirst' ↦ absurd hfirst' hfirst⟩
  | committed =>
      cases hseen with
      | committed _ hfirst => exact ⟨fun _ ↦ hfirst, fun _ ↦ hrecords.sameSlots_of_committed⟩

/-! ## Overlaps -/

/-- `validate` starts once the version that is visible to it equals the target; the reboot has
made the calls `before` by then. -/
inductive Overlapped (expected : String) (u : EcuStore) : List ManagerCall → EcuStore → Prop
  | intro {before during : List ManagerCall} {rest : ManagerThread} {s t : EcuStore}
      (hbefore : Run exec ⟨RebootManager.rebootThread, .done, u⟩ before ⟨rest, .done, s⟩)
      (hseen : versionEq s.versions.currentVersion expected = .ok true)
      (hduring : Run exec
        ⟨rest, PostInstallValidator.validateThread true s.versions.currentVersion, s⟩ during
        ⟨.done, .done, t⟩) : Overlapped expected u (before ++ during) t

theorem normalizeVersion_of_versionEq {a b : String} (h : versionEq a b = .ok true) :
    ∃ normalized, normalizeVersion a = .ok normalized := by
  rw [versionEq] at h
  cases ha : parseVersion a with
  | error err =>
      rw [ha] at h
      cases h
  | ok v => exact ⟨v.toString, by rw [normalizeVersion, ha]; rfl⟩

theorem Overlapped.joint {p : Slot} {expected : String} {u t : EcuStore}
    {trace : List ManagerCall} (h : Overlapped expected u trace t)
    (hrecords : Records p ⟨false, .pending⟩ u) :
    ∃ actual, Joint p actual trace ⟨.done, .done, t⟩ := by
  cases h with
  | @intro before during rest s t hbefore hseen hduring =>
      obtain ⟨normalized, hversion⟩ := normalizeVersion_of_versionEq hseen
      have hwaiting : Waiting p before ⟨rest, .done, s⟩ :=
        hbefore.invariant (I := Waiting p) (fun _ _ _ _ ↦ Waiting.step) (waiting_start hrecords)
      refine ⟨s.versions.currentVersion, ?_⟩
      refine hduring.invariant
        (I := fun calls ↦ Joint p s.versions.currentVersion (before ++ calls)) ?_ ?_
      · intro calls config c config' hjoint hstep
        rw [← List.append_assoc]
        exact hjoint.step hversion hstep
      · rw [List.append_nil]
        exact hwaiting.validate

/-! ## The installation in front of its reboot -/

/-- `install`, up to the line that reboots. -/
def FirmwareInstaller.installToReboot (ecuName : String) (firmwareFile : FirmwareFile)
    (targetVersion : String) : EcuM PUnit := do
  removeLegacyInstall firmwareFile
  let image ← readDownload firmwareFile
  let (metadata, payload) ← Persist.ofExcept (Firmware.extractFirmwarePayload image)
  stageImage ecuName metadata payload firmwareFile targetVersion

section Install

variable {e u : EcuStore} {ecuName targetVersion : String} {firmwareFile : FirmwareFile}

theorem install_eq_bind : install ecuName firmwareFile targetVersion =
    installToReboot ecuName firmwareFile targetVersion >>= fun _ ↦
      RebootManager.reboot >>= fun _ ↦ pure true := by
  rw [installToReboot, Persist.bind_assoc, install]
  refine congrArg _ (funext fun _ ↦ ?_)
  rw [Persist.bind_assoc]
  exact congrArg _ (funext fun _ ↦ (Persist.bind_assoc _ _ _).symm)

theorem records_of_staged {metadata : Firmware.FirmwareImageMetadata} {payload : Bytes}
    {normalized : String} (he : e.Sound) (hm : 1 ≤ e.slotInfo.maxBootAttempts)
    (hversion : normalizeVersion targetVersion = .ok normalized)
    (h : Staged e metadata payload firmwareFile targetVersion normalized u) :
    Records e.target ⟨false, .pending⟩ u where
  sound := h.sound he fun _ hd ↦ hd.1.sound
  limit := by
    rw [h.slotInfo]
    exact hm
  stored := by
    rw [h.slotState]
    exact Option.some_ne_none _
  closed := h.target.2
  version := by
    rw [h.versions]
    exact ⟨rfl, rfl, normalizeVersion_ne_empty hversion⟩
  slot := by
    rw [h.slotInfo]
    exact .pending rfl (Slot.eq_other_of_ne (Slot.ne_other _)) rfl

/-- The image is staged in front of the reboot, and nothing has booted it. -/
theorem staged_installToReboot (he : e.Sound) (hm : 1 ≤ e.slotInfo.maxBootAttempts)
    (h : (installToReboot ecuName firmwareFile targetVersion e).result = .ok ⟨⟩) :
    let u := (installToReboot ecuName firmwareFile targetVersion).store e
    Records e.target ⟨false, .pending⟩ u ∧
      normalizeVersion targetVersion = .ok u.versions.pendingVersion := by
  have hwp : (installToReboot ecuName firmwareFile targetVersion).wp (fun _ _ ↦ True)
      (fun r u ↦ r = .ok ⟨⟩ → Records e.target ⟨false, .pending⟩ u ∧
        normalizeVersion targetVersion = .ok u.versions.pendingVersion) e := by
    apply checked_wp (k := fun metadata payload ↦
      stageImage ecuName metadata payload firmwareFile targetVersion)
    · exact fun _ _ ↦ trivial
    · rintro err u - - ⟨⟩
    · rintro metadata payload u ⟨image, hdownload, hextract⟩ hu
      have hdown : u.downloads firmwareFile = some image := by
        obtain ⟨installed, rfl⟩ := hu
        exact hdownload
      have htarget : u.target = e.target := by
        obtain ⟨installed, rfl⟩ := hu
        rfl
      have hsound : u.Sound := hu.quiet.sound he
      have hdesc := describes_of_extract hextract
      cases hversion : normalizeVersion targetVersion with
      | error err =>
          refine Persist.wp_mono (stageImage_raises ecuName hsound hdesc hdown hversion)
            (fun _ _ _ ↦ trivial) ?_
          rintro _ _ ⟨rfl, -⟩ ⟨⟩
      | ok normalized =>
          have hstage := (stageImage_observes ecuName hsound hdesc hdown hversion).1
          refine ⟨fun _ _ ↦ trivial, fun _ ↦ ?_⟩
          obtain ⟨_, -, hstaged⟩ := Persist.returns_run hstage
          rw [← htarget]
          refine ⟨records_of_staged hsound ?_ hversion hstaged, ?_⟩
          · rwa [hu.quiet.slotInfo]
          · have hpending := congrArg VersionState.pendingVersion hstaged.versions
            exact congrArg Except.ok hpending.symm
  exact hwp.2 h

end Install

/-! ## Runs -/

/-- The flash is sound, and a staged image may boot at least once. -/
structure EcuStore.Ready (e : EcuStore) : Prop where
  sound : e.Sound
  limit : 1 ≤ e.slotInfo.maxBootAttempts

namespace EcuStore.Ready

variable {e t u : EcuStore}

theorem quiet (h : e.Ready) (hq : e.Quiet t) : t.Ready :=
  ⟨hq.sound h.sound, hq.slotInfo ▸ h.limit⟩

theorem moves (h : e.Ready) (hmoves : Moves e t) : t.Ready := by
  induction hmoves with
  | refl => exact h
  | tail _ hmove ih =>
      refine ⟨hmove.sound ih.sound, ?_⟩
      cases hmove with
      | quiet hq => exact (ih.quiet hq).limit
      | _ => exact ih.limit

theorem stage {v : VersionState} {w : SlotState} {D : SlotDir → Prop} (h : e.Ready)
    (hstage : Stage e v w D t) (hD : ∀ d, D d → d.Sound)
    (hw : w.maxBootAttempts = e.slotInfo.maxBootAttempts) : t.Ready := by
  refine ⟨hstage.sound h.sound hD, ?_⟩
  rw [hstage.slotInfo, hw]
  exact h.limit

theorem stagingWrite {metadata : Firmware.FirmwareImageMetadata} {payload : Bytes}
    {firmwareFile : FirmwareFile} {targetVersion : String} {i : EcuFile} (h : e.Ready)
    (hwrite : StagingWrite e metadata payload firmwareFile targetVersion i t) : t.Ready := by
  rcases hwrite.phase with hstage | hstage | ⟨normalized, -, hstage⟩
  · exact h.stage hstage (fun _ hd ↦ hd.sound) rfl
  · exact h.stage hstage (fun _ hd ↦ hd.sound) rfl
  · exact h.stage hstage (fun _ hd ↦ hd.sound) rfl

/-- Every write of a reboot or of a rollback. -/
theorem moving {α : Type} {m : EcuM α} (h : e.Ready) (hm : Moving m) :
    m.wp (fun _ t ↦ t.Ready) (fun _ t ↦ t.Ready) e := by
  refine Persist.wp_mono (hm e h.sound) (fun _ _ hwrite ↦ h.moves hwrite.2) ?_
  rintro _ _ ⟨_, -, hmoves⟩
  exact h.moves hmoves

end EcuStore.Ready

theorem ready_stage_and_reboot {e : EcuStore} {metadata : Firmware.FirmwareImageMetadata}
    {payload : Bytes} {firmwareFile : FirmwareFile} {ecuName targetVersion : String} (he : e.Ready)
    (haccepts : Accepts e firmwareFile metadata payload) :
    (do
      stageImage ecuName metadata payload firmwareFile targetVersion
      let _ ← RebootManager.reboot
      return true).wp (fun _ t ↦ t.Ready) (fun _ t ↦ t.Ready) e := by
  obtain ⟨image, hdownload, hextract⟩ := haccepts
  have hdesc := describes_of_extract hextract
  cases hversion : normalizeVersion targetVersion with
  | error err =>
      rw [Persist.wp_bind]
      refine Persist.wp_mono (stageImage_raises ecuName he.sound hdesc hdownload hversion)
        (fun _ _ ↦ he.stagingWrite) ?_
      rintro _ t ⟨rfl, ht⟩
      exact he.stage ht (fun _ hd ↦ hd.sound) rfl
  | ok normalized =>
      have hstage := (stageImage_observes ecuName he.sound hdesc hdownload hversion).1
      refine Persist.wp_bind_of_returns
        (Persist.returns_mono hstage (fun _ _ ↦ he.stagingWrite) fun _ _ ↦ id) ?_
      intro _ t ht
      have hready : t.Ready := he.stage ht (fun _ hd ↦ hd.1.sound) rfl
      refine hready.moving (moving_bind moving_reboot fun _ ↦ moving_pure _)

theorem ready_confirm {e : EcuStore} (he : e.Ready) (actual : String) :
    (PostInstallValidator.confirm actual).wp (fun _ t ↦ t.Ready) (fun _ t ↦ t.Ready) e := by
  cases hversion : normalizeVersion actual with
  | error err =>
      simp only [PostInstallValidator.confirm, VersionManager.confirmVersion, hversion,
        Persist.wp_bind, Persist.wp_ofExcept]
      exact he
  | ok normalized =>
      have hversions : (e.setVersions (e.versions.confirm normalized)).Ready := ⟨he.sound, he.limit⟩
      have hconfirmed : (e.confirmed normalized).Ready := ⟨he.sound, he.limit⟩
      have hperforms := Persist.performs_mono (confirm_performs hversion he.sound)
        (fun _ _ hwrite ↦ hconfirmed.quiet hwrite.2) fun _ _ ↦ hconfirmed.quiet
      refine Persist.wp_mono (hperforms.returns fun w hw ↦ ?_) (fun _ _ ↦ id) ?_
      · rcases List.mem_cons.mp hw with rfl | hw
        · exact hversions
        · rcases List.mem_append.mp hw with hw | hw
          · rw [SlotManager.openingWrites] at hw
            split at hw
            · obtain rfl := List.mem_singleton.mp hw
              exact ⟨hversions.sound, hversions.limit⟩
            · cases hw
          · obtain rfl := List.mem_singleton.mp hw
            exact hconfirmed
      · rintro _ _ ⟨_, -, hready⟩
        exact hready

theorem ready_operation {e : EcuStore} (he : e.Ready) (op : Operation) :
    op.run.wp (fun _ t ↦ t.Ready) (fun _ t ↦ t.Ready) e := by
  cases op with
  | download firmwareFile content =>
      refine (Persist.wp_write _ _).mpr ?_
      exact ⟨⟨he.sound, he.limit⟩, he.sound, he.limit⟩
  | install ecuName firmwareFile targetVersion =>
      rw [Operation.run, Persist.wp_bind]
      have hlegacy : ∀ u, Legacy e u → u.Ready := fun u hu ↦ he.quiet hu.quiet
      have hinstall : (install ecuName firmwareFile targetVersion).wp (fun _ t ↦ t.Ready)
          (fun _ t ↦ t.Ready) e := by
        apply install_wp
        · exact hlegacy
        · exact fun _ u _ ↦ hlegacy u
        · intro metadata payload u haccepts hu
          have haccepts' : Accepts u firmwareFile metadata payload := by
            obtain ⟨installed, rfl⟩ := hu
            exact haccepts
          exact ready_stage_and_reboot (hlegacy u hu) haccepts'
      refine Persist.wp_mono hinstall (fun _ _ ↦ id) ?_
      intro r t ht
      cases r with
      | error err => exact ht
      | ok r => exact (Persist.wp_pure _).mpr ht
  | reboot => exact he.moving (moving_bind moving_reboot fun _ ↦ moving_pure _)
  | confirm actual => exact ready_confirm he actual
  | rollback => exact he.moving (moving_rollback _)

/-- Operations that may each be cut off by a loss of power, and installations whose reboot a
validation overlaps. -/
inductive OverlapRun : EcuStore → Prop
  | fresh {m : ℕ} {e : EcuStore} (hm : 1 ≤ m) (h : Fresh m e) : OverlapRun e
  | operation {e : EcuStore} (h : OverlapRun e) (op : Operation) (k : ℕ) :
      OverlapRun (op.run.cutAfter k e)
  | overlap {e t : EcuStore} (h : OverlapRun e) {ecuName targetVersion expected : String}
      {firmwareFile : FirmwareFile} {trace : List ManagerCall}
      (hstage : (installToReboot ecuName firmwareFile targetVersion e).result = .ok ⟨⟩)
      (hoverlap : Overlapped expected
        ((installToReboot ecuName firmwareFile targetVersion).store e) trace t) : OverlapRun t

theorem OverlapRun.ready {e : EcuStore} (h : OverlapRun e) : e.Ready := by
  induction h with
  | fresh hm h =>
      refine ⟨h.sound, ?_⟩
      rw [h.slotInfo]
      exact hm
  | operation h op k ih =>
      have hwp := Persist.wp_mono (ready_operation ih op) (fun _ _ ↦ id) fun _ _ _ ↦ trivial
      exact Persist.cutAfter_of_wp hwp ih k
  | overlap h hstage hoverlap ih =>
      obtain ⟨actual, hjoint⟩ :=
        hoverlap.joint (staged_installToReboot ih.sound ih.limit hstage).1
      exact ⟨hjoint.records.sound, hjoint.records.limit⟩

/-! ## The two schedules behind a staged image -/

section Schedules

variable {p : Slot} {phase : Phase} {u s : EcuStore}

/-- The reboot up to the moment at which the staged version becomes visible. -/
theorem run_bootVersion (h : Records p ⟨false, .pending⟩ u) :
    ∃ s, Run exec ⟨RebootManager.rebootThread, .done, u⟩
        [pendingJournalRequiresRecovery, hasPendingCommit, shouldRollbackPending, hasPendingCommit,
          bootPendingVersion] ⟨RebootManager.activateThread, .done, s⟩ ∧
      Records p ⟨false, .pending⟩ s ∧ s.versions.currentVersion = u.versions.pendingVersion := by
  have hjournal := h.exec_pendingJournalRequiresRecovery
  have hcommit := h.exec_hasPendingCommit
  have hlimit := h.exec_shouldRollbackPending (by simp)
  obtain ⟨booted, s, hboot, hrecords, hvisible⟩ := h.exec_bootPendingVersion
  have hrun : Run exec ⟨RebootManager.rebootThread, .done, u⟩
      [pendingJournalRequiresRecovery, hasPendingCommit, shouldRollbackPending, hasPendingCommit,
        bootPendingVersion] ⟨RebootManager.activateThread, .done, s⟩ :=
    (run_left hjournal).trans <| (run_left hcommit).trans <| (run_left hlimit).trans <|
      (run_left hcommit).trans (run_left hboot)
  exact ⟨s, hrun, hrecords, hvisible rfl⟩

/-- … and the rest of it. -/
theorem run_activate (h : Records p phase s) (right : ManagerThread) :
    ∃ t, Run exec ⟨RebootManager.activateThread, right, s⟩ [activatePending, getCurrentVersion]
        ⟨.done, right, t⟩ ∧ Records p (phase.step activatePending) t := by
  obtain ⟨slot, t, hactivate, hrecords⟩ := h.exec_activatePending
  exact ⟨t, (run_left hactivate).trans (run_left (Records.exec_getCurrentVersion t)), hrecords⟩

theorem run_validate {actual normalized : String} (h : Records p phase s)
    (hconfirmed : phase.confirmed = false) (hversion : normalizeVersion actual = .ok normalized)
    (left : ManagerThread) :
    ∃ t, Run exec ⟨left, PostInstallValidator.validateThread true actual, s⟩
        [hasPendingCommit, confirmVersion actual, commitPending] ⟨left, .done, t⟩ ∧
      Records p ((phase.step (confirmVersion actual)).step commitPending) t := by
  have hpending := h.exec_hasPendingCommit
  rw [hconfirmed] at hpending
  obtain ⟨confirmed, r, hconfirm, hrecords⟩ := h.exec_confirmVersion hversion
  obtain ⟨committed, t, hcommit, hrecords'⟩ := hrecords.exec_commitPending
  have hrun : Run exec ⟨left, PostInstallValidator.validateThread true actual, s⟩
      [hasPendingCommit, confirmVersion actual, commitPending] ⟨left, .done, t⟩ :=
    (run_right hpending).trans <| (run_right hconfirm).trans (run_right hcommit)
  exact ⟨t, hrun, hrecords'⟩

/-- The validation in front of the slot switch, and behind it. -/
theorem exists_overlapped {expected : String} (h : Records p ⟨false, .pending⟩ u)
    (hseen : versionEq u.versions.pendingVersion expected = .ok true) :
    (∃ trace t, Overlapped expected u trace t ∧ ¬ActivatedFirst trace) ∧
      ∃ trace t, Overlapped expected u trace t ∧ ActivatedFirst trace := by
  obtain ⟨s, hboot, hrecords, hvisible⟩ := run_bootVersion h
  rw [← hvisible] at hseen
  obtain ⟨normalized, hversion⟩ := normalizeVersion_of_versionEq hseen
  constructor
  · obtain ⟨r, hvalidate, hvalidated⟩ :=
      run_validate hrecords rfl hversion RebootManager.activateThread
    obtain ⟨t, hactivate, -⟩ := run_activate hvalidated .done
    refine ⟨_, t, .intro hboot hseen (hvalidate.trans hactivate), fun hfirst ↦ ?_⟩
    have hmem := hfirst [pendingJournalRequiresRecovery, hasPendingCommit, shouldRollbackPending,
      hasPendingCommit, bootPendingVersion, hasPendingCommit,
      confirmVersion s.versions.currentVersion] [activatePending, getCurrentVersion] rfl
    simp at hmem
  · obtain ⟨r, hactivate, hactivated⟩ := run_activate hrecords
      (PostInstallValidator.validateThread true s.versions.currentVersion)
    obtain ⟨t, hvalidate, -⟩ := run_validate hactivated rfl hversion .done
    refine ⟨_, t, .intro hboot hseen (hactivate.trans hvalidate), (seen_after _).activatedFirst ?_⟩
    change SlotPhase.committed ≠ .stale
    simp

end Schedules

/-! ## Both records behind an overlap -/

/-- The first installation of a delivered ECU is staged. -/
theorem staged_deliveredEcu :
    (installToReboot "bcm" bcmFirmware "2.0.0" deliveredEcu).result = .ok ⟨⟩ := by
  obtain ⟨_, hinstall, -⟩ := Persist.returns_run installed_deliveredEcu.1
  rw [install_eq_bind] at hinstall
  cases hstage : (installToReboot "bcm" bcmFirmware "2.0.0" deliveredEcu).result with
  | ok _ => rfl
  | error err => simp [bind, hstage] at hinstall

theorem overlapRun_deliveredEcu : OverlapRun deliveredEcu := .fresh le_rfl fresh_deliveredEcu

/-- Both schedules behind it. -/
theorem overlapped_deliveredEcu :
    let u := (installToReboot "bcm" bcmFirmware "2.0.0").store deliveredEcu
    (∃ trace t, Overlapped "2.0.0" u trace t ∧ ¬ActivatedFirst trace) ∧
      ∃ trace t, Overlapped "2.0.0" u trace t ∧ ActivatedFirst trace := by
  have hready := overlapRun_deliveredEcu.ready
  obtain ⟨hrecords, hversion⟩ :=
    staged_installToReboot hready.sound hready.limit staged_deliveredEcu
  have hnormal : normalizeVersion "2.0.0" = .ok "2.0.0" := by rfl
  refine exists_overlapped hrecords ?_
  rw [← Except.ok.inj (hnormal.symm.trans hversion)]
  rfl

/-- Behind the overlap of an installation with its validation both managers agree if and only if
`activate_pending` was called in front of `commit_pending`. -/
theorem overlap_agrees_iff (e t : EcuStore) (ecuName targetVersion expected : String)
    (firmwareFile : FirmwareFile) (trace : List ManagerCall) (h : OverlapRun e)
    (hstage : (installToReboot ecuName firmwareFile targetVersion e).result = .ok ⟨⟩)
    (hoverlap : Overlapped expected
      ((installToReboot ecuName firmwareFile targetVersion).store e) trace t) :
    t.SameSlots ↔ ActivatedFirst trace := by
  have hready := h.ready
  obtain ⟨actual, hjoint⟩ :=
    hoverlap.joint (staged_installToReboot hready.sound hready.limit hstage).1
  exact hjoint.sameSlots_iff

theorem overlap_agrees_iff_delivered :
    ∃ trace t, Overlapped "2.0.0"
        ((installToReboot "bcm" bcmFirmware "2.0.0").store deliveredEcu) trace t ∧ t.SameSlots := by
  obtain ⟨trace, t, hoverlap, hfirst⟩ := overlapped_deliveredEcu.2
  exact ⟨trace, t, hoverlap, (overlap_agrees_iff _ _ _ _ _ _ _ overlapRun_deliveredEcu
    staged_deliveredEcu hoverlap).mpr hfirst⟩

/-- The version is visible in front of `activate_pending`; a validation that runs there commits
the old slot. -/
theorem overlap_disagrees :
    ∃ trace t, Overlapped "2.0.0"
        ((installToReboot "bcm" bcmFirmware "2.0.0").store deliveredEcu) trace t ∧ ¬t.SameSlots := by
  obtain ⟨trace, t, hoverlap, hfirst⟩ := overlapped_deliveredEcu.1
  have hready := overlapRun_deliveredEcu.ready
  obtain ⟨actual, hjoint⟩ :=
    hoverlap.joint (staged_installToReboot hready.sound hready.limit staged_deliveredEcu).1
  exact ⟨trace, t, hoverlap, fun hsame ↦ hfirst (hjoint.sameSlots_iff.mp hsame)⟩

end VehicleOta.Ecu
