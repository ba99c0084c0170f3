import VehicleOta.Uds.CanSafety

/-!
# Installs in the background

`ECUReset` starts a thread that installs while the programmer goes on serving requests.  What
keeps a second install from starting is not `install_started`, which the same request clears
again, but that nothing is pending until another download has been saved.
-/

namespace VehicleOta.Uds

open ProgrammingServer TraceLogic

/-- The file that an install started by the action reads. -/
def Action.installedFile? : Action → Option String
  | .install _ file _ => some file
  | _ => none

/-- The programmer, and the file of every install in progress, oldest first. -/
structure InstallingEcu where
  programmer : UDSCanProgrammer
  installing : List String := []

/-- A request takes effect at the moment it saves the download or starts the thread; an install
ends, with or without an exception, at any moment. -/
inductive Happening where
  | request (r : Request)
  | installEnds (k : ℕ)

/-- What follows, and the files that are saved. -/
def InstallingEcu.happen (ecu : InstallingEcu) :
    Happening → InstallingEcu × List (String × Bytes)
  | .request r =>
      let o := ecu.programmer.handleUds r
      (⟨o.state, ecu.installing ++ o.actions.filterMap Action.installedFile?⟩, (exchange r o).saves)
  | .installEnds k => (⟨ecu.programmer, ecu.installing.eraseIdx k⟩, [])

theorem filterMap_installedFile?_of_installs {σ : Type} {o : Outcome σ} (h : o.installs = false) :
    o.actions.filterMap Action.installedFile? = [] := by
  refine List.filterMap_eq_nil_iff.mpr fun a ha ↦ ?_
  cases a with
  | install key file version => exact absurd rfl (List.any_eq_false.mp h _ ha)
  | _ => rfl

namespace UDSCanProgrammer

variable {p : UDSCanProgrammer} {r : Request}

/-! ## Saved downloads -/

/-- The conditions under which the request is a `RequestTransferExit` that saves the download. -/
structure SavesDownload (r : Request) (p : UDSCanProgrammer) : Prop where
  service : r.payload.head? = some sidRequestTransferExit
  diagnosticsEnabled : r.diagnosticsEnabled
  programmingEnabled : r.programmingEnabled
  unexpired : p.base.sessionExpired r.expiryClock = false
  session : p.base.currentSession = defaultSessionProgramming
  unlocked : p.base.securityUnlocked
  requested : p.downloadRequested
  length : p.base.lengthMismatch = false

theorem saves_saveAndVerify (r : Request) (p : UDSCanProgrammer) :
    (exchange r (saveAndVerify conclude r p)).saves =
      [(p.firmwareFile, p.base.receiver.firmwareData)] := by
  unfold saveAndVerify
  cases r.original with
  | error e => rfl
  | ok original => rfl

theorem handleUds_requestTransferExit (hhead : r.payload.head? = some sidRequestTransferExit)
    (hdiagnostics : r.diagnosticsEnabled) (hprogramming : r.programmingEnabled) :
    handleUds r p = requestTransferExit r p :=
  handleUds_of_enabled hhead hdiagnostics fun _ ↦ hprogramming

theorem SavesDownload.saves (h : SavesDownload r p) :
    (exchange r (handleUds r p)).saves =
      [(p.firmwareFile, p.base.receiver.firmwareData)] := by
  have hunlocked : (update (.touchSession r.touchClock) p).base.securityUnlocked = true := h.unlocked
  have hrequested : (update (.touchSession r.touchClock) p).downloadRequested = true := h.requested
  have hlength : ¬ (update (.touchSession r.touchClock) p).base.lengthMismatch = true :=
    Bool.eq_false_iff.mp h.length
  rw [handleUds_requestTransferExit h.service h.diagnosticsEnabled h.programmingEnabled,
    requestTransferExit, requireProgrammingSession_of_programming _ h.unexpired h.session,
    if_neg (not_not.mpr hunlocked), if_neg (not_not.mpr hrequested), if_neg hlength]
  exact saves_saveAndVerify r _

theorem saves_of_refused {o : Outcome UDSCanProgrammer}
    (h : ∀ a ∈ o.actions, a = .expire ∨ a.responseCode? = some sidNegativeResponse) :
    (exchange r o).saves = [] := by
  refine List.filterMap_eq_nil_iff.mpr fun a ha ↦ ?_
  cases a with
  | save file data => exact absurd (h _ ha) (by simp [Action.responseCode?])
  | _ => rfl

theorem savesDownload_of_requestTransferExit
    (hhead : r.payload.head? = some sidRequestTransferExit) (hdiagnostics : r.diagnosticsEnabled)
    (hprogramming : r.programmingEnabled)
    (h : (exchange r (requestTransferExit r p)).saves ≠ []) : SavesDownload r p := by
  rcases requireProgrammingSession_cases sidRequestTransferExit _ r p with
    ⟨hunexpired, hsession, heq⟩ | hrefused
  · rw [requestTransferExit, heq] at h
    split_ifs at h with hunlocked hrequested hlength
    · exact absurd rfl h
    · exact ⟨hhead, hdiagnostics, hprogramming, hunexpired, hsession, hunlocked, hrequested,
        Bool.eq_false_iff.mpr hlength⟩
    · exact absurd rfl h
    · exact absurd rfl h
  · exact absurd (saves_of_refused hrefused) h

theorem saves_ecuReset : (exchange r (ecuReset r p)).saves = [] := by
  rcases requireProgrammingSession_cases sidEcuReset (resetEcu r) r p with ⟨-, -, heq⟩ | hrefused
  · rw [ecuReset, heq]
    unfold resetEcu
    split_ifs
    · rfl
    · rfl
  · exact saves_of_refused hrefused

/-- Nothing else is ever saved. -/
theorem savesDownload_of_saves (h : (exchange r (handleUds r p)).saves ≠ []) :
    SavesDownload r p := by
  cases hhead : r.payload.head? with
  | none =>
      rw [handleUds_of_nil (List.head?_eq_none_iff.mp hhead)] at h
      exact absurd rfl h
  | some serviceId =>
      rcases handleUds_cases hhead with ⟨hdiagnostics, hprogramming, heq⟩ | ⟨-, heq⟩
      · rw [heq] at h
        by_cases hexit : serviceId = sidRequestTransferExit
        · subst hexit
          exact savesDownload_of_requestTransferExit hhead hdiagnostics (hprogramming (by decide)) h
        · by_cases hreset : serviceId = sidEcuReset
          · subst hreset
            exact absurd saves_ecuReset h
          · exact absurd (@Outcome.Plain.saves _ r _ (plain_serve hexit hreset)) h
      · rw [heq] at h
        exact absurd rfl h

/-! ## Started installs -/

/-- The reset that starts an install takes the pending download with it. -/
theorem handleUds_starts (h : (handleUds r p).installs) :
    p.base.installPending ∧
      (handleUds r p).actions.filterMap Action.installedFile? = [p.firmwareFile] ∧
      (handleUds r p).state.base.installPending = false := by
  obtain ⟨-, heq⟩ := handleUds_of_installs h
  rw [heq] at h ⊢
  have hreset : ecuReset r p = resetEcu r (update (.touchSession r.touchClock) p) :=
    requireProgrammingSession_of_installs h
  refine ⟨(ecuReset_of_installs h).1, ?_⟩
  rw [hreset] at h ⊢
  unfold resetEcu at h ⊢
  dsimp only at h ⊢
  split
  · exact ⟨rfl, rfl⟩
  · rename_i hready
    rw [if_neg hready] at h
    exact absurd h Bool.false_ne_true

/-- Without a saved download nothing becomes pending. -/
theorem pending_of_not_savesDownload (hnot : ¬ SavesDownload r p)
    (h : (handleUds r p).state.base.installPending) : p.base.installPending := by
  obtain ⟨-, ⟨hpending, -⟩ | ⟨data, -, -, hsaves⟩⟩ := (explained_handleUds r p).pending h
  · exact hpending
  · refine absurd (savesDownload_of_saves ?_) hnot
    rw [hsaves]
    exact List.cons_ne_nil _ _

theorem firmwareFile_handleUds (r : Request) (p : UDSCanProgrammer) :
    (handleUds r p).state.firmwareFile = p.firmwareFile := (explained_handleUds r p).file

end UDSCanProgrammer

/-! ## Runs -/

namespace InstallingEcu

/-- No request saves a download while an install is in progress. -/
def Undisturbed (ecu : InstallingEcu) (happening : Happening) : Prop :=
  ∀ r, happening = .request r → ecu.installing ≠ [] → ¬ ecu.programmer.SavesDownload r

/-- What the happening saves is not the file of an install in progress. -/
def Spares (ecu : InstallingEcu) (happening : Happening) : Prop :=
  ∀ file ∈ ecu.installing, ∀ saved ∈ (ecu.happen happening).2, saved.1 ≠ file

structure Exclusive (ecu : InstallingEcu) : Prop where
  atMostOne : ecu.installing.length ≤ 1
  notPending : ecu.installing ≠ [] → ecu.programmer.base.installPending = false

theorem Exclusive.step {ecu : InstallingEcu} {happening : Happening} (h : Exclusive ecu)
    (hundisturbed : Undisturbed ecu happening) : Exclusive (ecu.happen happening).1 := by
  cases happening with
  | installEnds k =>
      refine ⟨(List.length_eraseIdx_le _ _).trans h.atMostOne, fun hne ↦ h.notPending ?_⟩
      intro hnil
      exact hne (by simp [happen, hnil])
  | request r =>
      by_cases hinstalls : (ecu.programmer.handleUds r).installs
      · obtain ⟨hpending, hstarts, hcleared⟩ := UDSCanProgrammer.handleUds_starts hinstalls
        have hnil : ecu.installing = [] := by
          by_contra hne
          exact absurd (hpending.symm.trans (h.notPending hne)) (by decide)
        refine ⟨?_, fun _ ↦ hcleared⟩
        simp [happen, hstarts, hnil]
      · have hnone := filterMap_installedFile?_of_installs (Bool.eq_false_iff.mpr hinstalls)
        have hsame : (ecu.happen (.request r)).1.installing = ecu.installing := by
          simp [happen, hnone]
        refine ⟨hsame ▸ h.atMostOne, fun hne ↦ ?_⟩
        rw [hsame] at hne
        by_contra hpending
        have hbefore := UDSCanProgrammer.pending_of_not_savesDownload (hundisturbed r rfl hne)
          (Bool.eq_true_of_not_eq_false hpending)
        exact absurd (hbefore.symm.trans (h.notPending hne)) (by decide)

/-- Every install in progress reads the one file of the programmer. -/
def SameFile (file : String) (ecu : InstallingEcu) : Prop :=
  ecu.programmer.firmwareFile = file ∧ ∀ other ∈ ecu.installing, other = file

theorem SameFile.step {file : String} {ecu : InstallingEcu} (h : SameFile file ecu)
    (happening : Happening) : SameFile file (ecu.happen happening).1 := by
  cases happening with
  | installEnds k => exact ⟨h.1, fun other hother ↦ h.2 other (List.mem_of_mem_eraseIdx hother)⟩
  | request r =>
      refine ⟨(UDSCanProgrammer.firmwareFile_handleUds r ecu.programmer).trans h.1, ?_⟩
      intro other hother
      rcases List.mem_append.mp hother with hold | hnew
      · exact h.2 other hold
      · by_cases hinstalls : (ecu.programmer.handleUds r).installs
        · rw [(UDSCanProgrammer.handleUds_starts hinstalls).2.1] at hnew
          exact (List.mem_singleton.mp hnew).trans h.1
        · rw [filterMap_installedFile?_of_installs (Bool.eq_false_iff.mpr hinstalls)] at hnew
          cases hnew

theorem spares_iff {file : String} {ecu : InstallingEcu} {happening : Happening}
    (h : SameFile file ecu) : Spares ecu happening ↔ Undisturbed ecu happening := by
  constructor
  · intro hspares r hr hne hsaves
    subst hr
    obtain ⟨other, hother⟩ := List.exists_mem_of_ne_nil _ hne
    refine hspares other hother (ecu.programmer.firmwareFile,
      ecu.programmer.base.receiver.firmwareData) ?_ (h.1.trans (h.2 _ hother).symm)
    rw [happen, hsaves.saves]
    exact List.mem_singleton.mpr rfl
  · intro hundisturbed other hother saved hsaved
    cases happening with
    | installEnds k => cases hsaved
    | request r =>
        have hsaves := UDSCanProgrammer.savesDownload_of_saves (List.ne_nil_of_mem hsaved)
        exact absurd hsaves (hundisturbed r rfl (List.ne_nil_of_mem hother))

def initial (ecuId : ℕ) (ecuKey firmwareFile targetVersion : String) : InstallingEcu :=
  ⟨.initial ecuId ecuKey firmwareFile targetVersion, []⟩

theorem sameFile_run (ecuId : ℕ) (ecuKey file version : String) (happenings : List Happening) :
    SameFile file (run happen (initial ecuId ecuKey file version) happenings).1 :=
  run_invariant (A := fun _ _ _ ↦ True) (I := fun ecu _ ↦ SameFile file ecu)
    ⟨rfl, by simp [initial]⟩ (fun _ _ happening h _ ↦ h.step happening) happenings
    (admissible_of_forall (fun _ _ _ ↦ trivial) _ _)

theorem exclusive_run {ecuId : ℕ} {ecuKey file version : String} {happenings : List Happening}
    (h : Admissible happen (fun ecu _ happening ↦ Undisturbed ecu happening)
      (initial ecuId ecuKey file version) happenings) :
    Exclusive (run happen (initial ecuId ecuKey file version) happenings).1 := by
  have hinit : Exclusive (initial ecuId ecuKey file version) :=
    ⟨Nat.zero_le 1, fun hne ↦ absurd rfl hne⟩
  exact run_invariant (I := fun ecu _ ↦ Exclusive ecu) hinit
    (fun _ _ _ hecu hundisturbed ↦ hecu.step hundisturbed) happenings h

/-- At most one install is ever in progress and none has its file replaced, exactly in the runs
in which no download is saved while an install is in progress. -/
theorem one_install_iff (ecuId : ℕ) (ecuKey file version : String) (happenings : List Happening) :
    (∀ before after, happenings = before ++ after →
        (run happen (initial ecuId ecuKey file version) before).1.installing.length ≤ 1) ∧
      Admissible happen (fun ecu _ happening ↦ Spares ecu happening)
        (initial ecuId ecuKey file version) happenings ↔
    Admissible happen (fun ecu _ happening ↦ Undisturbed ecu happening)
      (initial ecuId ecuKey file version) happenings := by
  constructor
  · rintro ⟨-, hspares⟩ before happening after heq
    exact (spares_iff (sameFile_run ecuId ecuKey file version before)).mp
      (hspares before happening after heq)
  · intro h
    refine ⟨?_, ?_⟩
    · rintro before after rfl
      refine (exclusive_run fun front happening rest heq ↦ ?_).atMostOne
      exact h front happening (rest ++ after) (by rw [heq]; simp)
    · intro before happening after heq
      exact (spares_iff (sameFile_run ecuId ecuKey file version before)).mpr
        (h before happening after heq)

/-- The second session of the BCM, while the install of the first one is in progress. -/
def secondSession : List Request :=
  [{ payload := [0x10, 0x02], touchClock := 11 },
   { payload := [0x27, 0x01], expiryClock := 12, touchClock := 12, securityClock := 12 },
   { payload := [0x27, 0x02, 0xA7, 0x58, 0x3C, 0xC1], expiryClock := 13, touchClock := 13 },
   { payload := [0x31, 0x01, 0xFF, 0x00, 0, 0, 0, 1], expiryClock := 14, touchClock := 14 },
   { payload := [0x34, 0x00, 0x44, 8, 0, 0, 0, 0, 0, 0, 1], expiryClock := 15, touchClock := 15 },
   { payload := [0x36, 0x01, 0x77], expiryClock := 16, touchClock := 16 },
   { payload := [0x37], expiryClock := 17, touchClock := 17, original := .ok [0x77] },
   { payload := [0x31, 0x01, 0xFF, 0x02], expiryClock := 18, touchClock := 18 },
   { payload := [0x11, 0x01], expiryClock := 19, touchClock := 19 }]

/-- Two installs are in progress, and the file of the first one was replaced. -/
theorem installs_overlap :
    (run happen (initial 0x202 "bcm" "bcm_v2.bin" "2.0.0")
        ((UDSCanProgrammer.bcmSession ++ [UDSCanProgrammer.bcmReset] ++ secondSession).map
          .request)).1.installing = ["bcm_v2.bin", "bcm_v2.bin"] ∧
      ("bcm_v2.bin", [0x77]) ∈ (run happen (run happen (initial 0x202 "bcm" "bcm_v2.bin" "2.0.0")
        ((UDSCanProgrammer.bcmSession ++ [UDSCanProgrammer.bcmReset]).map .request)).1
        (secondSession.map .request)).2.flatten := by
  decide +kernel

end InstallingEcu

end VehicleOta.Uds
