import VehicleOta.Uds.CanSafety

/-!
# Activations

`ActivateImage` marks the image that was verified last.  The mark is cleared together with the
pending install, with one exception: `RequestDownload` clears the pending install alone.
-/

namespace VehicleOta.Uds

open ProgrammingServer TraceLogic

/-! ## What an exchange does to the mark -/

def Exchange.Activated (x : Exchange) : Prop :=
  x.Accepted sidRoutineControl ∧ x.request.getD 1 0 = routineControlStart ∧
    intFromBytes (slice x.request 2 4) = routineActivateImage

instance (x : Exchange) : Decidable x.Activated := inferInstanceAs (Decidable (_ ∧ _))

/-- In this session the image was activated after it was verified, and the memory was neither
erased nor requested since. -/
def ActivatedAfter (file : String) (data : Bytes) : List Exchange → Prop :=
  Since (fun x ↦ x.Quiet ∧ ¬ x.Erased ∧ ¬ x.DownloadRequested) fun past x ↦
    x.Activated ∧ Verified file data past

section Step

variable {σ : Type} [ProgrammingServer σ]

/-- What becomes of the mark; `allowed` is the condition under which the server serves
`RequestTransferExit`. -/
inductive Marking (allowed : σ → Prop) (s t : σ) (x : Exchange) : Prop where
  | cleared (h : (base t).activationMarked = false)
  | kept (h : (base t).activationMarked = (base s).activationMarked)
      (hpending : (base t).installPending = (base s).installPending) (hx : x.Tame)
  | marked (hs : (base s).installPending) (ht : (base t).installPending) (hactivated : x.Activated)
      (hx : x.Tame)
  | exited (h : (base t).activationMarked = (base s).activationMarked) (hallowed : allowed s)

variable {allowed : σ → Prop} {s : σ} {r : Request} {serviceId : UInt8}

theorem marking_negative (r : Request) (serviceId code : UInt8) (s : σ) :
    Marking allowed s s (exchange r (negative serviceId code s)) :=
  .kept rfl rfl (tame_negative r serviceId code s)

theorem marking_update {x : Exchange} {f : ProgrammingState → ProgrammingState}
    (hmarked : (f (base s)).activationMarked = (base s).activationMarked)
    (hpending : (f (base s)).installPending = (base s).installPending) (hx : x.Tame) :
    Marking allowed s (update f s) x :=
  .kept (by rw [base_update, hmarked]) (by rw [base_update, hpending]) hx

theorem marking_reset {x : Exchange} (session : UInt8) :
    Marking allowed s (resetProgrammingState (update (.setSession session) s)) x := by
  obtain ⟨started, h⟩ := base_reset (update (.setSession session) s)
  exact .cleared (by rw [h]; rfl)

theorem marking_requireProgrammingSession {service : σ → Outcome σ}
    (hservice : (base s).sessionExpired r.expiryClock = false →
      (base s).currentSession = defaultSessionProgramming →
      Marking allowed (update (.touchSession r.touchClock) s)
        (service (update (.touchSession r.touchClock) s)).state
        (exchange r (service (update (.touchSession r.touchClock) s))))
    (hallowed : allowed (update (.touchSession r.touchClock) s) → allowed s) :
    Marking allowed s (requireProgrammingSession serviceId service r s).state
      (exchange r (requireProgrammingSession serviceId service r s)) := by
  unfold requireProgrammingSession
  rcases expireSessionIfNeeded_cases r s with ⟨hunexpired, he⟩ | ⟨-, he⟩
  · simp only [he]
    split
    · exact marking_negative r serviceId _ s
    · rename_i hprog
      have hmarked : (base (update (.touchSession r.touchClock) s)).activationMarked =
          (base s).activationMarked := by rw [base_update]; rfl
      have hpending : (base (update (.touchSession r.touchClock) s)).installPending =
          (base s).installPending := by rw [base_update]; rfl
      cases hservice hunexpired (not_not.mp hprog) with
      | cleared h => exact .cleared h
      | kept h hp hx => exact .kept (h.trans hmarked) (hp.trans hpending) hx
      | marked hs ht hactivated hx => exact .marked (hpending ▸ hs) ht hactivated hx
      | exited h ha => exact .exited (h.trans hmarked) (hallowed ha)
  · simp only [he]
    rw [if_pos (by rw [currentSession_expired]; decide)]
    exact marking_reset 0x00

theorem marking_diagnosticSessionControl :
    Marking allowed s (diagnosticSessionControl r s).state
      (exchange r (diagnosticSessionControl r s)) := by
  obtain ⟨started, h⟩ := base_reset (update (.setSession (r.payload.getD 1 0x00)) s)
  refine .cleared ?_
  rw [diagnosticSessionControl, reply_state, base_update, h]
  rfl

theorem marking_testerPresent (hhead : r.payload.head? = some sidTesterPresent) :
    Marking allowed s (testerPresent r s).state (exchange r (testerPresent r s)) := by
  have htame : ∀ t : σ, (exchange r ((reply [positiveResponseSid sidTesterPresent,
      r.payload.getD 1 0x00] t).after [])).Tame := fun t ↦
    tame_of_head hhead (by decide) (by decide) (by decide) (by simp [Outcome.after, reply]) rfl
  unfold testerPresent
  rcases expireSessionIfNeeded_cases r s with ⟨-, he⟩ | ⟨-, he⟩
  · simp only [he]
    split
    · exact marking_update rfl rfl (htame _)
    · exact .kept rfl rfl (htame _)
  · simp only [he]
    rw [if_neg (by rw [currentSession_expired]; decide)]
    exact marking_reset 0x00

theorem marking_readDataByIdentifier (hhead : r.payload.head? = some sidReadDataByIdentifier) :
    Marking allowed s (readDataByIdentifier r s).state (exchange r (readDataByIdentifier r s)) := by
  unfold readDataByIdentifier
  split
  · exact marking_negative r _ _ s
  · split
    · exact marking_negative r _ _ s
    · cases r.currentVersion with
      | error e =>
          exact .kept rfl rfl (tame_of_head hhead (by decide) (by decide) (by decide) (by simp) rfl)
      | ok version =>
          exact .kept rfl rfl
            (tame_of_head hhead (by decide) (by decide) (by decide) (by simp [reply]) rfl)

theorem marking_rejectKey : Marking allowed s (rejectKey r s).state (exchange r (rejectKey r s)) := by
  unfold rejectKey
  dsimp only
  split
  · refine .kept ?_ ?_ (tame_negative r _ _ _)
    · rw [negative, reply_state, base_update, base_update]
      rfl
    · rw [negative, reply_state, base_update, base_update]
      rfl
  · exact marking_update rfl rfl (tame_negative r _ _ _)

theorem marking_securityAccess (hhead : r.payload.head? = some sidSecurityAccess)
    (hallowed : allowed (update (.touchSession r.touchClock) s) → allowed s) :
    Marking allowed s (securityAccess r s).state (exchange r (securityAccess r s)) := by
  refine marking_requireProgrammingSession (fun _ _ ↦ ?_) hallowed
  generalize update (.touchSession r.touchClock) s = s
  have htame : ∀ (payload : Bytes) (t : σ), (exchange r (reply payload t)).Tame := fun payload t ↦
    tame_of_head hhead (by decide) (by decide) (by decide) (by simp [reply]) rfl
  split
  · exact marking_negative r _ _ s
  · split
    · unfold requestSeed
      split
      · exact marking_negative r _ _ s
      · exact marking_update rfl rfl (htame _ _)
    · split
      · unfold sendKey
        split
        · exact marking_negative r _ _ s
        · cases deriveSecurityKey r.security (base s).pendingSeed with
          | error e =>
              exact .kept rfl rfl (tame_of_head hhead (by decide) (by decide) (by decide) (by simp) rfl)
          | ok key =>
              dsimp only
              split
              · exact marking_rejectKey
              · exact marking_update rfl rfl (htame _ _)
      · exact marking_negative r _ _ s

/-- What the erase routine of a server does to the mark. -/
def ClearsMark (erase : Bytes → σ → σ) : Prop :=
  ∀ data s, (base (erase data s)).activationMarked = false

theorem marking_routineControl {erase : Bytes → σ → σ} (herase : ClearsMark erase)
    (hhead : r.payload.head? = some sidRoutineControl)
    (hallowed : allowed (update (.touchSession r.touchClock) s) → allowed s) :
    Marking allowed s (routineControl erase r s).state (exchange r (routineControl erase r s)) := by
  refine marking_requireProgrammingSession (fun _ _ ↦ ?_) hallowed
  generalize update (.touchSession r.touchClock) s = s
  split
  · exact marking_negative r _ _ s
  split
  · exact marking_negative r _ _ s
  split
  · exact marking_negative r _ _ s
  rename_i hstart
  have htame : ∀ t : σ, intFromBytes (slice r.payload 2 4) ≠ routineEraseMemory →
      (exchange r ⟨t, routineResponses r, none⟩).Tame := fun t hid ↦
    ⟨quiet_routineResponses hhead t none, fun h ↦ hid h.2.2,
      not_accepted_of_head hhead (by decide), rfl⟩
  unfold startRoutine
  dsimp only
  split
  · exact .cleared (herase _ s)
  rename_i hid
  split
  · split
    · exact marking_negative r _ _ s
    · exact .kept rfl rfl (htame s hid)
  split
  · rename_i hactivate
    split
    · exact marking_negative r _ _ s
    · rename_i hpending
      refine .marked (not_not.mp hpending) ?_ ⟨⟨hhead, ?_⟩, not_not.mp hstart, hactivate⟩ (htame _ hid)
      · rw [base_update]
        exact not_not.mp hpending
      · simp [exchange, responseCodes_routineResponses]
  · exact marking_negative r _ _ s

theorem marking_receiveBlock (hhead : r.payload.head? = some sidTransferData) :
    Marking allowed s (receiveBlock r s).state (exchange r (receiveBlock r s)) := by
  unfold receiveBlock
  dsimp only
  split
  · exact marking_negative r _ _ s
  · split
    · exact marking_negative r _ _ s
    · exact marking_update rfl rfl
        (tame_of_head hhead (by decide) (by decide) (by decide) (by simp [reply]) rfl)

theorem marking_ecuReset (hallowed : allowed (update (.touchSession r.touchClock) s) → allowed s) :
    Marking allowed s (ecuReset r s).state (exchange r (ecuReset r s)) := by
  refine marking_requireProgrammingSession (fun _ _ ↦ ?_) hallowed
  unfold resetEcu
  split
  · obtain ⟨started, h⟩ := base_reset (update (.setSession 0x00)
      (update ProgrammingState.startInstall (update (.touchSession r.touchClock) s)))
    exact .cleared (by rw [h]; rfl)
  · exact marking_reset 0x00

end Step

/-! ## The CAN programmer -/

namespace UDSCanProgrammer

variable {p : UDSCanProgrammer} {r : Request}

/-- The checks in front of `RequestDownload`. -/
structure AcceptsDownload (p : UDSCanProgrammer) (r : Request) : Prop where
  service : r.payload.head? = some sidRequestDownload
  diagnostics : r.diagnosticsEnabled
  programming : r.programmingEnabled
  unexpired : p.base.sessionExpired r.expiryClock = false
  session : p.base.currentSession = defaultSessionProgramming
  unlocked : p.base.securityUnlocked
  erased : p.base.eraseCompleted
  length : 11 ≤ r.payload.length
  format : r.payload.getD 1 0 = 0x00 ∧ r.payload.getD 2 0 = 0x44

theorem marking_transferData (hhead : r.payload.head? = some sidTransferData) :
    Marking Allowed p (transferData r p).state (exchange r (transferData r p)) := by
  refine marking_requireProgrammingSession (fun _ _ ↦ ?_) (allowed_touchSession p _)
  split
  · exact marking_negative r _ _ _
  · split
    · exact marking_negative r _ _ _
    · split
      · exact marking_negative r _ _ _
      · exact marking_receiveBlock hhead

theorem marking_requestTransferExit :
    Marking Allowed p (requestTransferExit r p).state (exchange r (requestTransferExit r p)) := by
  refine marking_requireProgrammingSession (fun _ _ ↦ ?_) (allowed_touchSession p _)
  split
  · exact marking_negative r _ _ _
  · split
    · exact marking_negative r _ _ _
    · rename_i hrequested
      split
      · exact marking_negative r _ _ _
      · refine .exited ?_ (not_not.mp hrequested)
        unfold saveAndVerify
        cases r.original <;> rfl

/-- An accepted `RequestDownload` is the one service that the marking does not cover. -/
theorem marking_requestDownload
    (hdiagnostics : r.diagnosticsEnabled) (hprogramming : r.programmingEnabled)
    (hhead : r.payload.head? = some sidRequestDownload) (hr : ¬ AcceptsDownload p r) :
    Marking Allowed p (requestDownload r p).state (exchange r (requestDownload r p)) := by
  refine marking_requireProgrammingSession (fun hunexpired hprog ↦ ?_) (allowed_touchSession p _)
  split
  · exact marking_negative r _ _ _
  · rename_i hguard
    obtain ⟨hunlocked, herased⟩ := not_or.mp hguard
    split
    · exact marking_negative r _ _ _
    · rename_i hlength
      split
      · exact marking_negative r _ _ _
      · rename_i hformat
        obtain ⟨hfirst, hsecond⟩ := not_or.mp hformat
        exact absurd ⟨hhead, hdiagnostics, hprogramming, hunexpired, hprog, not_not.mp hunlocked,
          not_not.mp herased, not_lt.mp hlength, not_not.mp hfirst, not_not.mp hsecond⟩ hr

theorem marking_serve {serviceId : UInt8} (hhead : r.payload.head? = some serviceId)
    (hdiagnostics : r.diagnosticsEnabled)
    (hprogramming : serviceId ∈ programmingServices → r.programmingEnabled)
    (hr : ¬ AcceptsDownload p r) :
    Marking Allowed p (serve serviceId r p).state (exchange r (serve serviceId r p)) := by
  have hserved := served serviceId r p
  generalize serve serviceId r p = o at hserved ⊢
  cases hserved with
  | diagnosticSessionControl => exact marking_diagnosticSessionControl
  | testerPresent => exact marking_testerPresent hhead
  | readDataByIdentifier => exact marking_readDataByIdentifier hhead
  | securityAccess => exact marking_securityAccess hhead (allowed_touchSession p _)
  | routineControl =>
      exact marking_routineControl (fun _ _ ↦ rfl) hhead (allowed_touchSession p _)
  | requestDownload =>
      exact marking_requestDownload hdiagnostics (hprogramming (by decide)) hhead hr
  | transferData => exact marking_transferData hhead
  | requestTransferExit => exact marking_requestTransferExit
  | ecuReset => exact marking_ecuReset (allowed_touchSession p _)
  | unsupported => exact marking_negative r _ _ p

theorem marking_handleUds (hr : ¬ AcceptsDownload p r) :
    Marking Allowed p (handleUds r p).state (exchange r (handleUds r p)) := by
  cases hhead : r.payload.head? with
  | none =>
      have hnot : ∀ (o : Outcome UDSCanProgrammer) other, ¬ (exchange r o).Accepted other := by
        rintro o other ⟨h, -⟩
        simp [exchange, hhead] at h
      rw [handleUds_of_nil (List.head?_eq_none_iff.mp hhead)]
      exact .kept rfl rfl ⟨⟨hnot _ _, by simp [exchange, Exchange.Expired]⟩, fun h ↦ hnot _ _ h.1,
        hnot _ _, rfl⟩
  | some serviceId =>
      rcases handleUds_cases hhead with ⟨hdiagnostics, hprogramming, heq⟩ | ⟨-, heq⟩
      · rw [heq]
        exact marking_serve hhead hdiagnostics hprogramming hr
      · rw [heq]
        exact marking_negative r _ _ p

theorem handleUds_of_accepts (h : AcceptsDownload p r) : handleUds r p = requestDownload r p :=
  handleUds_of_enabled h.service h.diagnostics fun _ ↦ h.programming

/-- No `RequestDownload` sets the mark. -/
theorem activationMarked_of_requestDownload
    (h : (requestDownload r p).state.base.activationMarked) : p.base.activationMarked := by
  unfold requestDownload requireProgrammingSession at h
  rcases expireSessionIfNeeded_cases r p with ⟨-, he⟩ | ⟨-, he⟩
  · simp only [he] at h
    split at h
    · exact h
    · split at h
      · exact h
      · split at h
        · exact h
        · split at h
          · exact h
          · exact h
  · simp only [he] at h
    rw [if_pos (by rw [currentSession_expired]; decide)] at h
    exact absurd h Bool.false_ne_true

/-- The install thread starts on a marked activation. -/
theorem activationMarked_of_installs (h : (ecuReset r p).installs) : p.base.activationMarked := by
  have heq := requireProgrammingSession_of_installs h
  have hinstalls : (resetEcu r (update (.touchSession r.touchClock) p)).installs := heq ▸ h
  unfold resetEcu at hinstalls
  dsimp only at hinstalls
  split at hinstalls
  · rename_i hready
    exact (of_decide_eq_true hready).2.1
  · exact absurd hinstalls Bool.false_ne_true

/-! ## Runs -/

/-- No download is accepted while an activation is marked. -/
def NoStaleMark (p : UDSCanProgrammer) (_ : List Exchange) (r : Request) : Prop :=
  p.base.activationMarked → ¬ AcceptsDownload p r

/-- The mark as a memory of the trace, next to the other flags. -/
structure MarkMemory (file : String) (p : UDSCanProgrammer) (trace : List Exchange) : Prop where
  memory : Memory file p trace
  pending : p.base.activationMarked → p.base.installPending
  activated : p.base.activationMarked →
    ∃ data, ActivatedAfter file data trace ∧ lastSaved trace = some (file, data)

theorem MarkMemory.step {file : String} {trace : List Exchange} (h : MarkMemory file p trace)
    (r : Request) (hr : NoStaleMark p trace r) :
    MarkMemory file (Uds.step handleUds p r).1 (trace ++ [(Uds.step handleUds p r).2]) := by
  have hmemory := h.memory.step r
  by_cases hdownload : AcceptsDownload p r
  · have hnot : ¬ (Uds.step handleUds p r).1.base.activationMarked := by
      intro (hmarked : (handleUds r p).state.base.activationMarked)
      rw [handleUds_of_accepts hdownload] at hmarked
      exact hr (activationMarked_of_requestDownload hmarked) hdownload
    exact ⟨hmemory, fun hmarked ↦ absurd hmarked hnot, fun hmarked ↦ absurd hmarked hnot⟩
  · cases marking_handleUds hdownload with
    | cleared hcleared =>
        have hnot : ¬ (Uds.step handleUds p r).1.base.activationMarked := fun hmarked ↦
          Bool.false_ne_true (hcleared.symm.trans hmarked)
        exact ⟨hmemory, fun hmarked ↦ absurd hmarked hnot, fun hmarked ↦ absurd hmarked hnot⟩
    | kept hmarked hpending hx =>
        refine ⟨hmemory, fun ht ↦ ?_, fun ht ↦ ?_⟩
        · exact hpending.trans (h.pending (hmarked.symm.trans ht))
        · obtain ⟨data, hactivated, hlast⟩ := h.activated (hmarked.symm.trans ht)
          refine ⟨data, hactivated.concat ⟨hx.quiet, hx.notErased, hx.notRequested⟩, ?_⟩
          rw [lastSaved_concat]
          exact (congrArg (fun l ↦ l.getLast?.or (lastSaved trace)) hx.saves).trans hlast
    | marked hs ht hactivated hx =>
        refine ⟨hmemory, fun _ ↦ ht, fun _ ↦ ?_⟩
        obtain ⟨data, hverified, hlast⟩ := h.memory.verified hs
        refine ⟨data, since_of_mark ⟨hactivated, hverified⟩, ?_⟩
        rw [lastSaved_concat]
        exact (congrArg (fun l ↦ l.getLast?.or (lastSaved trace)) hx.saves).trans hlast
    | exited hmarked hallowed =>
        -- a requested download excludes a pending install, and so a mark
        have hnot : ¬ (Uds.step handleUds p r).1.base.activationMarked := fun ht ↦
          h.memory.remembered.fresh hallowed (h.pending (hmarked.symm.trans ht))
        exact ⟨hmemory, fun ht ↦ absurd ht hnot, fun ht ↦ absurd ht hnot⟩

theorem markMemory_run (ecuId : ℕ) (ecuKey file version : String) (requests : List Request)
    (h : Admissible (Uds.step handleUds) NoStaleMark (initial ecuId ecuKey file version) requests) :
    MarkMemory file (run (Uds.step handleUds) (initial ecuId ecuKey file version) requests).1
      (run (Uds.step handleUds) (initial ecuId ecuKey file version) requests).2 := by
  refine run_invariant (I := MarkMemory file) ⟨?_, fun h ↦ ?_, fun h ↦ ?_⟩
    (fun _ _ r h hr ↦ h.step r hr) requests h
  · exact memory_run ecuId ecuKey file version []
  · exact absurd h Bool.false_ne_true
  · exact absurd h Bool.false_ne_true

/-- In every run that accepts no download while an activation is marked: a marked activation has a
pending install, and a request that starts the install thread has an activation behind it that
came after the verification of the file last saved. -/
theorem activation_is_fresh (ecuId : ℕ) (ecuKey file version : String) (requests : List Request)
    (h : Admissible (step handleUds) NoStaleMark (initial ecuId ecuKey file version) requests) :
    ((run (step handleUds) (initial ecuId ecuKey file version) requests).1.base.activationMarked →
      (run (step handleUds) (initial ecuId ecuKey file version) requests).1.base.installPending) ∧
    ∀ r, (step handleUds
        (run (step handleUds) (initial ecuId ecuKey file version) requests).1 r).2.Launched →
      ∃ data,
        ActivatedAfter file data
          (run (step handleUds) (initial ecuId ecuKey file version) requests).2 ∧
        lastSaved (run (step handleUds) (initial ecuId ecuKey file version) requests).2 =
          some (file, data) := by
  have hmemory := markMemory_run ecuId ecuKey file version requests h
  refine ⟨hmemory.pending, fun r hlaunched ↦ hmemory.activated ?_⟩
  have hinstalls := installs_of_launched hlaunched
  obtain ⟨-, heq⟩ := handleUds_of_installs hinstalls
  exact activationMarked_of_installs (heq ▸ hinstalls)

theorem noStaleMark_of_head {trace : List Exchange}
    (h : r.payload.head? ≠ some sidRequestDownload) : NoStaleMark p trace r :=
  fun _ haccepts ↦ h haccepts.service

theorem activation_is_fresh_bcm :
    ∃ data, ActivatedAfter "bcm_v2.bin" data
      (run (step handleUds) (initial 0x202 "bcm" "bcm_v2.bin" "2.0.0") bcmSession).2 := by
  have hfront : Admissible (step handleUds) NoStaleMark (initial 0x202 "bcm" "bcm_v2.bin" "2.0.0")
      (bcmSession.take 4) := by
    intro before r after heq
    exact noStaleMark_of_head ((by decide : ∀ r ∈ bcmSession.take 4,
      r.payload.head? ≠ some sidRequestDownload) r (by simp [heq]))
  have hdownload := hfront.concat (i := bcmSession.getD 4 bcmReset) fun hmarked ↦
    absurd hmarked (by decide +kernel)
  have hblock := hdownload.concat (i := bcmSession.getD 5 bcmReset)
    (noStaleMark_of_head (by decide))
  have hexit := hblock.concat (i := bcmSession.getD 6 bcmReset) (noStaleMark_of_head (by decide))
  have hactivate := hexit.concat (i := bcmSession.getD 7 bcmReset) (noStaleMark_of_head (by decide))
  obtain ⟨data, hactivated, -⟩ := (activation_is_fresh 0x202 "bcm" "bcm_v2.bin" "2.0.0" bcmSession
    hactivate).2 bcmReset (by decide +kernel)
  exact ⟨data, hactivated⟩

/-! ## A second download behind an activation -/

def secondDownload : Request :=
  { payload := [0x34, 0x00, 0x44, 8, 0, 0, 0, 0, 0, 0, 2], expiryClock := 9, touchClock := 9 }

/-- The second image, up to its verification. -/
def secondImage : List Request :=
  [{ payload := [0x36, 0x01, 0x12, 0x34], expiryClock := 10, touchClock := 10 },
   { payload := [0x37], expiryClock := 11, touchClock := 11, original := .ok [0x12, 0x34] }]

/-- The mark outlives the pending install, and then lets the second image in. -/
theorem stale_activation_installs :
    ((run (step handleUds) (initial 0x202 "bcm" "bcm_v2.bin" "2.0.0")
        (bcmSession ++ [secondDownload])).1.base.activationMarked = true ∧
      (run (step handleUds) (initial 0x202 "bcm" "bcm_v2.bin" "2.0.0")
        (bcmSession ++ [secondDownload])).1.base.installPending = false) ∧
    (step handleUds (run (step handleUds) (initial 0x202 "bcm" "bcm_v2.bin" "2.0.0")
      (bcmSession ++ [secondDownload] ++ secondImage)).1 bcmReset).2.Launched ∧
    ∀ data, ¬ ActivatedAfter "bcm_v2.bin" data
      (run (step handleUds) (initial 0x202 "bcm" "bcm_v2.bin" "2.0.0")
        (bcmSession ++ [secondDownload] ++ secondImage)).2 := by
  refine ⟨by decide +kernel, by decide +kernel, fun data h ↦ ?_⟩
  refine not_since_of_drop 8 ?_ ?_ (h.mono (fun x hx ↦ hx.2.2) fun _ x hx ↦ hx.1)
  · decide +kernel
  · decide +kernel

end UDSCanProgrammer

end VehicleOta.Uds
