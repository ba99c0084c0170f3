import VehicleOta.Uds.History

/-!
# What one request does to the flags of a server

`Explained` traces every flag after an exchange to a flag before it or to the exchange
itself.  The services that both servers share are explained here, once for both.
-/

namespace VehicleOta.Uds

open ProgrammingServer TraceLogic

/-! ## One request -/

section Step

variable {σ : Type} [ProgrammingServer σ]

/-- The exchange that a request and its outcome make. -/
def exchange (r : Request) (o : Outcome σ) : Exchange := ⟨r.payload, o.actions, o.error⟩

/-- One step of a server that handles requests by `handle`. -/
def step (handle : Request → σ → Outcome σ) (s : σ) (r : Request) : σ × Exchange :=
  ((handle r s).state, exchange r (handle r s))

/-- Where the flags after an exchange come from.  `allowed` is the condition under which the
server serves `RequestTransferExit`. -/
structure Explained (allowed : σ → Prop) (s t : σ) (x : Exchange) : Prop where
  session : (base t).currentSession = defaultSessionProgramming →
    x.SessionControl ∧ ¬ x.Expired ∨
      x.Quiet ∧ (base s).currentSession = defaultSessionProgramming
  unlocked : (base t).securityUnlocked → x.Quiet ∧ ((base s).securityUnlocked ∨
    x.KeyAccepted ∧ (base s).currentSession = defaultSessionProgramming)
  erased : (base t).eraseCompleted → x.Quiet ∧ ((base s).eraseCompleted ∨
    x.Erased ∧ (base s).securityUnlocked)
  requested : downloadRequested t → x.Quiet ∧ (downloadRequested s ∨
    x.DownloadRequested ∧ (base s).eraseCompleted)
  pending : (base t).installPending → x.Quiet ∧
    ((base s).installPending ∧ ¬ x.Erased ∧ ¬ x.DownloadRequested ∧
        (x.saves = [] ∨ allowed s) ∨
      ∃ data, x.TransferExited (firmwareFile s) data ∧ allowed s ∧
        x.saves = [(firmwareFile s, data)])
  fresh : downloadRequested t → (base t).installPending →
    downloadRequested s ∧ (base s).installPending
  file : firmwareFile t = firmwareFile s

/-- The flags of the session as a memory of the trace. -/
structure Remembered (s : σ) (trace : List Exchange) : Prop where
  opened : (base s).currentSession = defaultSessionProgramming → Opened trace
  keyed : (base s).securityUnlocked → Keyed trace
  erased : (base s).eraseCompleted → MemoryErased trace
  requested : downloadRequested s → Requested trace
  fresh : downloadRequested s → ¬ (base s).installPending

/-- A server that was just created remembers nothing. -/
theorem Remembered.initial {s : σ} (hbase : base s = {}) (hrequested : downloadRequested s = false) :
    Remembered s [] where
  opened h := absurd (hbase ▸ h) (by decide)
  keyed h := by simp [hbase] at h
  erased h := by simp [hbase] at h
  requested h := absurd (hrequested ▸ h) Bool.false_ne_true
  fresh h := absurd (hrequested ▸ h) Bool.false_ne_true

/-- Explained flags stay a memory of the trace. -/
theorem Remembered.step {allowed : σ → Prop} {s t : σ} {trace : List Exchange} {x : Exchange}
    (h : Remembered s trace) (he : Explained allowed s t x) : Remembered t (trace ++ [x]) where
  opened ht := by
    rcases he.session ht with hx | ⟨hx, hs⟩
    · exact since_of_mark hx
    · exact (h.opened hs).concat hx
  keyed ht := by
    obtain ⟨hx, hs⟩ := he.unlocked ht
    exact Then.concat hx (hs.imp h.keyed (And.imp_right h.opened))
  erased ht := by
    obtain ⟨hx, hs⟩ := he.erased ht
    exact Then.concat hx (hs.imp h.erased (And.imp_right h.keyed))
  requested ht := by
    obtain ⟨hx, hs⟩ := he.requested ht
    exact Then.concat hx (hs.imp h.requested (And.imp_right h.erased))
  fresh ht htp := h.fresh (he.fresh ht htp).1 (he.fresh ht htp).2

/-! ## Exchanges that leave the flags alone -/

/-- The flags of `t` are flags of `s`, in the same session. -/
structure Within (s t : σ) : Prop where
  session : (base t).currentSession = (base s).currentSession
  unlocked : (base t).securityUnlocked → (base s).securityUnlocked
  erased : (base t).eraseCompleted → (base s).eraseCompleted
  pending : (base t).installPending → (base s).installPending
  requested : downloadRequested t = downloadRequested s
  file : firmwareFile t = firmwareFile s

theorem Within.refl (s : σ) : Within s s := ⟨rfl, id, id, id, rfl, rfl⟩

theorem Within.trans {s t u : σ} (h : Within s t) (h' : Within t u) : Within s u where
  session := h'.session.trans h.session
  unlocked hu := h.unlocked (h'.unlocked hu)
  erased hu := h.erased (h'.erased hu)
  pending hu := h.pending (h'.pending hu)
  requested := h'.requested.trans h.requested
  file := h'.file.trans h.file

theorem within_update {s : σ} {f : ProgrammingState → ProgrammingState}
    (hsession : (f (base s)).currentSession = (base s).currentSession)
    (hunlocked : (f (base s)).securityUnlocked → (base s).securityUnlocked)
    (herased : (f (base s)).eraseCompleted → (base s).eraseCompleted)
    (hpending : (f (base s)).installPending → (base s).installPending) :
    Within s (update f s) where
  session := by rw [base_update, hsession]
  unlocked ht := hunlocked (by rwa [base_update] at ht)
  erased ht := herased (by rwa [base_update] at ht)
  pending ht := hpending (by rwa [base_update] at ht)
  requested := downloadRequested_update f s
  file := firmwareFile_update f s

theorem within_touchSession (now : ℚ) (s : σ) : Within s (update (.touchSession now) s) :=
  within_update rfl id id id

theorem within_issueSeed (seed : Bytes) (s : σ) : Within s (update (.issueSeed seed) s) :=
  within_update rfl (fun h ↦ absurd h Bool.false_ne_true) id id

theorem within_countFailure (s : σ) : Within s (update ProgrammingState.countFailure s) :=
  within_update rfl (fun h ↦ absurd h Bool.false_ne_true) id id

theorem within_lockSecurity (until_ : ℚ) (s : σ) : Within s (update (.lockSecurity until_) s) :=
  within_update rfl id id id

theorem within_markActivation (s : σ) : Within s (update ProgrammingState.markActivation s) :=
  within_update rfl id id id

theorem within_receive (chunk : Bytes) (s : σ) : Within s (update (.receive chunk) s) :=
  within_update rfl id id id

/-- An exchange that neither marks a stage nor touches the session or the file. -/
structure Exchange.Tame (x : Exchange) : Prop where
  quiet : x.Quiet
  notErased : ¬ x.Erased
  notRequested : ¬ x.DownloadRequested
  saves : x.saves = []

theorem Explained.of_within {allowed : σ → Prop} {s t : σ} {x : Exchange} (h : Within s t)
    (hx : x.Tame) : Explained allowed s t x where
  session ht := Or.inr ⟨hx.quiet, h.session ▸ ht⟩
  unlocked ht := ⟨hx.quiet, Or.inl (h.unlocked ht)⟩
  erased ht := ⟨hx.quiet, Or.inl (h.erased ht)⟩
  requested ht := ⟨hx.quiet, Or.inl (h.requested ▸ ht)⟩
  pending ht := ⟨hx.quiet, Or.inl ⟨h.pending ht, hx.notErased, hx.notRequested, Or.inl hx.saves⟩⟩
  fresh ht htp := ⟨h.requested ▸ ht, h.pending htp⟩
  file := h.file

/-- Explanations start from any state with the same flags. -/
theorem Explained.of_start {allowed : σ → Prop} {s s' t : σ} {x : Exchange} (hs : Within s s')
    (hallowed : allowed s' → allowed s) (h : Explained allowed s' t x) :
    Explained allowed s t x where
  session ht := (h.session ht).imp_right (And.imp_right (hs.session ▸ ·))
  unlocked ht := (h.unlocked ht).imp_right (Or.imp hs.unlocked (And.imp_right (hs.session ▸ ·)))
  erased ht := (h.erased ht).imp_right (Or.imp hs.erased (And.imp_right hs.unlocked))
  requested ht :=
    (h.requested ht).imp_right (Or.imp (hs.requested ▸ ·) (And.imp_right hs.erased))
  pending ht := by
    obtain ⟨hx, hp | ⟨data, hexit, ha, hsaves⟩⟩ := h.pending ht
    · exact ⟨hx, Or.inl ⟨hs.pending hp.1, hp.2.1, hp.2.2.1, hp.2.2.2.imp_right hallowed⟩⟩
    · exact ⟨hx, Or.inr ⟨data, hs.file ▸ hexit, hallowed ha, hs.file ▸ hsaves⟩⟩
  fresh ht htp := ⟨hs.requested ▸ (h.fresh ht htp).1, hs.pending (h.fresh ht htp).2⟩
  file := h.file.trans hs.file

/-- Every flag is down: nothing is left to explain but the session. -/
theorem Explained.of_cleared {allowed : σ → Prop} {s t : σ} {x : Exchange} {started : Bool}
    {b : ProgrammingState} (hb : base t = { b.reset with installStarted := started })
    (hrequested : downloadRequested t = false) (hfile : firmwareFile t = firmwareFile s)
    (hsession : b.currentSession = defaultSessionProgramming → x.SessionControl ∧ ¬ x.Expired) :
    Explained allowed s t x where
  session ht := Or.inl (hsession (by simpa [hb, ProgrammingState.reset] using ht))
  unlocked ht := by simp [hb, ProgrammingState.reset] at ht
  erased ht := by simp [hb, ProgrammingState.reset] at ht
  requested ht := by simp [hrequested] at ht
  pending ht := by simp [hb, ProgrammingState.reset] at ht
  fresh ht := by simp [hrequested] at ht
  file := hfile

end Step

/-! ## Responses -/

section Responses

variable {σ : Type} {r : Request} {serviceId : UInt8} {o : Outcome σ}

theorem not_accepted_of_head (hhead : r.payload.head? = some serviceId) {other : UInt8}
    (hne : serviceId ≠ other) : ¬ (exchange r o).Accepted other := by
  rintro ⟨hr, -⟩
  exact hne (Option.some.inj (hhead.symm.trans hr))

theorem not_accepted_of_actions {other : UInt8}
    (hactions : some (positiveResponseSid other) ∉ o.actions.map Action.responseCode?) :
    ¬ (exchange r o).Accepted other := fun h ↦ hactions h.2

/-- Responses of a service that is neither session control nor one with a mark. -/
theorem tame_of_head (hhead : r.payload.head? = some serviceId)
    (hsession : serviceId ≠ sidDiagnosticSessionControl) (hroutine : serviceId ≠ sidRoutineControl)
    (hdownload : serviceId ≠ sidRequestDownload) (hexpire : .expire ∉ o.actions)
    (hsave : o.actions.filterMap Action.saved? = []) : (exchange r o).Tame where
  quiet := ⟨not_accepted_of_head hhead hsession, hexpire⟩
  notErased h := not_accepted_of_head hhead hroutine h.1
  notRequested := not_accepted_of_head hhead hdownload
  saves := hsave

/-- A negative response says that nothing happened. -/
theorem tame_negative (r : Request) (serviceId code : UInt8) (s : σ) :
    (exchange r (negative serviceId code s)).Tame := by
  have hcodes : (negative serviceId code s).actions.map Action.responseCode? =
      [some sidNegativeResponse] := rfl
  have hnot : ∀ other, positiveResponseSid other ≠ sidNegativeResponse →
      ¬ (exchange r (negative serviceId code s)).Accepted other := by
    intro other hne
    apply not_accepted_of_actions
    rw [hcodes]
    simpa using hne
  exact ⟨⟨hnot _ (by decide), by simp [exchange, Exchange.Expired, negative, reply]⟩,
    fun h ↦ hnot _ (by decide) h.1, hnot _ (by decide), rfl⟩

theorem responseCodes_routineResponses (r : Request) :
    (routineResponses r).map Action.responseCode? =
      [some sidNegativeResponse, some (positiveResponseSid sidRoutineControl)] := rfl

theorem quiet_routineResponses (hhead : r.payload.head? = some sidRoutineControl) (t : σ)
    (e : Option PyError) : (exchange r ⟨t, routineResponses r, e⟩).Quiet :=
  ⟨not_accepted_of_head hhead (by decide),
    by simp [exchange, Exchange.Expired, routineResponses, responsePending]⟩

end Responses

/-! ## Sessions -/

section Services

variable {σ : Type} [ProgrammingServer σ] {allowed : σ → Prop} {s : σ} {r : Request}
  {serviceId : UInt8}

theorem explained_negative {t : σ} (h : Within s t) (r : Request) (serviceId code : UInt8) :
    Explained allowed s t (exchange r (negative serviceId code t)) :=
  .of_within h (tame_negative r serviceId code t)

/-- The expiry check either leaves the server as it is, or clears it and closes the session. -/
theorem expireSessionIfNeeded_cases (r : Request) (s : σ) :
    (base s).sessionExpired r.expiryClock = false ∧ expireSessionIfNeeded r s = ⟨s, [], none⟩ ∨
      (base s).sessionExpired r.expiryClock = true ∧ expireSessionIfNeeded r s =
        ⟨resetProgrammingState (update (.setSession 0x00) s), [.expire], none⟩ := by
  unfold expireSessionIfNeeded
  cases (base s).sessionExpired r.expiryClock with
  | false => exact Or.inl ⟨rfl, rfl⟩
  | true => exact Or.inr ⟨rfl, rfl⟩

theorem currentSession_expired (s : σ) :
    (base (resetProgrammingState (update (.setSession 0x00) s))).currentSession = 0x00 := by
  obtain ⟨started, h⟩ := base_reset (update (.setSession 0x00) s)
  rw [h, base_update]
  rfl

theorem explained_expired {x : Exchange} :
    Explained allowed s (resetProgrammingState (update (.setSession 0x00) s)) x := by
  obtain ⟨started, h⟩ := base_reset (update (.setSession 0x00) s)
  refine .of_cleared h (by simp) (by simp) fun hprog ↦ ?_
  rw [base_update] at hprog
  exact absurd hprog (by simp [ProgrammingState.setSession, defaultSessionProgramming])

/-- Behind the session check only the service itself is left to explain. -/
theorem explained_requireProgrammingSession {service : σ → Outcome σ}
    (hallowed : ∀ s now, allowed (update (.touchSession now) s) → allowed s)
    (hservice : ∀ s, (base s).currentSession = defaultSessionProgramming →
      Explained allowed s (service s).state (exchange r (service s))) :
    Explained allowed s (requireProgrammingSession serviceId service r s).state
      (exchange r (requireProgrammingSession serviceId service r s)) := by
  unfold requireProgrammingSession
  rcases expireSessionIfNeeded_cases r s with ⟨-, he⟩ | ⟨-, he⟩
  · simp only [he]
    split
    · exact explained_negative (.refl s) r serviceId _
    · rename_i hprog
      exact (hservice _ (by simpa [ProgrammingState.touchSession] using hprog)).of_start
        (within_touchSession _ s) (hallowed s _)
  · simp only [he]
    rw [if_pos (by rw [currentSession_expired]; decide)]
    exact explained_expired

theorem explained_diagnosticSessionControl
    (hhead : r.payload.head? = some sidDiagnosticSessionControl) :
    Explained allowed s (diagnosticSessionControl r s).state
      (exchange r (diagnosticSessionControl r s)) := by
  obtain ⟨started, h⟩ := base_reset (update (.setSession (r.payload.getD 1 0x00)) s)
  have hopened : (exchange r (diagnosticSessionControl r s)).SessionControl ∧
      ¬ (exchange r (diagnosticSessionControl r s)).Expired :=
    ⟨⟨hhead, by simp [exchange, diagnosticSessionControl, reply, Action.responseCode?]⟩,
      by simp [exchange, Exchange.Expired, diagnosticSessionControl, reply]⟩
  have hcleared : base (diagnosticSessionControl r s).state =
      { (((base s).setSession (r.payload.getD 1 0x00)).touchSession r.touchClock).reset with
        installStarted := started } :=
    (base_update _ _).trans (by rw [h, base_update]; rfl)
  refine .of_cleared hcleared ?_ ?_ fun _ ↦ hopened
  · simp [diagnosticSessionControl, reply]
  · simp [diagnosticSessionControl, reply]

theorem explained_testerPresent (hhead : r.payload.head? = some sidTesterPresent) :
    Explained allowed s (testerPresent r s).state (exchange r (testerPresent r s)) := by
  have htame : ∀ t : σ, (exchange r ((reply [positiveResponseSid sidTesterPresent,
      r.payload.getD 1 0x00] t).after [])).Tame := fun t ↦
    tame_of_head hhead (by decide) (by decide) (by decide) (by simp [Outcome.after, reply]) rfl
  unfold testerPresent
  rcases expireSessionIfNeeded_cases r s with ⟨-, he⟩ | ⟨-, he⟩
  · simp only [he]
    split
    · exact .of_within (within_touchSession _ s) (htame _)
    · exact .of_within (.refl s) (htame _)
  · simp only [he]
    rw [if_neg (by rw [currentSession_expired]; decide)]
    exact explained_expired

theorem explained_readDataByIdentifier (hhead : r.payload.head? = some sidReadDataByIdentifier) :
    Explained allowed s (readDataByIdentifier r s).state
      (exchange r (readDataByIdentifier r s)) := by
  unfold readDataByIdentifier
  split
  · exact explained_negative (.refl s) r _ _
  · split
    · exact explained_negative (.refl s) r _ _
    · split
      · exact .of_within (.refl s)
          (tame_of_head hhead (by decide) (by decide) (by decide) (by simp) rfl)
      · exact .of_within (.refl s)
          (tame_of_head hhead (by decide) (by decide) (by decide) (by simp [reply]) rfl)

/-! ## SecurityAccess -/

theorem explained_requestSeed (hhead : r.payload.head? = some sidSecurityAccess) :
    Explained allowed s (requestSeed r s).state (exchange r (requestSeed r s)) := by
  unfold requestSeed
  split
  · exact explained_negative (.refl s) r _ _
  · exact .of_within (within_issueSeed _ s)
      (tame_of_head hhead (by decide) (by decide) (by decide) (by simp [reply]) rfl)

theorem explained_rejectKey : Explained allowed s (rejectKey r s).state
    (exchange r (rejectKey r s)) := by
  unfold rejectKey
  dsimp only
  split
  · exact explained_negative ((within_countFailure s).trans (within_lockSecurity _ _)) r _ _
  · exact explained_negative (within_countFailure s) r _ _

/-- The accepted key is the only way to the unlocked state. -/
theorem explained_sendKey (hhead : r.payload.head? = some sidSecurityAccess)
    (hsub : r.payload.getD 1 0 = securityAccessSendKey)
    (hprog : (base s).currentSession = defaultSessionProgramming) :
    Explained allowed s (sendKey r s).state (exchange r (sendKey r s)) := by
  unfold sendKey
  split
  · exact explained_negative (.refl s) r _ _
  · split
    · exact .of_within (.refl s)
        (tame_of_head hhead (by decide) (by decide) (by decide) (by simp) rfl)
    · split
      · exact explained_rejectKey
      · have htame : ∀ t : σ, (exchange r (reply [positiveResponseSid sidSecurityAccess,
            securityAccessSendKey] t)).Tame := fun t ↦
          tame_of_head hhead (by decide) (by decide) (by decide) (by simp [reply]) rfl
        have hkey : ∀ t : σ, (exchange r (reply [positiveResponseSid sidSecurityAccess,
            securityAccessSendKey] t)).KeyAccepted := fun t ↦
          ⟨⟨hhead, by simp [exchange, reply, Action.responseCode?]⟩, hsub⟩
        exact {
          session := fun ht ↦ Or.inr ⟨(htame _).quiet, hprog⟩
          unlocked := fun _ ↦ ⟨(htame _).quiet, Or.inr ⟨hkey _, hprog⟩⟩
          erased := fun ht ↦ ⟨(htame _).quiet, Or.inl (by simpa [ProgrammingState.unlock] using ht)⟩
          requested := fun ht ↦ ⟨(htame _).quiet, Or.inl (by simpa [ProgrammingState.unlock] using ht)⟩
          pending := fun ht ↦ ⟨(htame _).quiet, Or.inl ⟨by simpa [ProgrammingState.unlock] using ht,
            (htame _).notErased, (htame _).notRequested, Or.inl rfl⟩⟩
          fresh := fun ht htp ↦ ⟨by simpa [ProgrammingState.unlock] using ht,
            by simpa [ProgrammingState.unlock] using htp⟩
          file := firmwareFile_update _ s }

theorem explained_securityAccess (hhead : r.payload.head? = some sidSecurityAccess)
    (hallowed : ∀ s now, allowed (update (.touchSession now) s) → allowed s) :
    Explained allowed s (securityAccess r s).state (exchange r (securityAccess r s)) := by
  apply explained_requireProgrammingSession hallowed
  intro s hprog
  split
  · exact explained_negative (.refl s) r _ _
  · split
    · exact explained_requestSeed hhead
    · split
      · rename_i hsub
        exact explained_sendKey hhead hsub hprog
      · exact explained_negative (.refl s) r _ _

/-! ## RoutineControl -/

/-- What the erase routine of a server does to the flags. -/
structure Erases (erase : Bytes → σ → σ) : Prop where
  session : ∀ data s, (base (erase data s)).currentSession = (base s).currentSession
  unlocked : ∀ data s, (base (erase data s)).securityUnlocked = (base s).securityUnlocked
  pending : ∀ data s, (base (erase data s)).installPending = false
  requested : ∀ data s, downloadRequested (erase data s) = downloadRequested s
  file : ∀ data s, firmwareFile (erase data s) = firmwareFile s

theorem explained_startRoutine {erase : Bytes → σ → σ} (herase : Erases erase)
    (hhead : r.payload.head? = some sidRoutineControl)
    (hstart : r.payload.getD 1 0 = routineControlStart) (hunlocked : (base s).securityUnlocked) :
    Explained allowed s (startRoutine erase r s).state (exchange r (startRoutine erase r s)) := by
  have htame : ∀ t : σ, intFromBytes (slice r.payload 2 4) ≠ routineEraseMemory →
      (exchange r ⟨t, routineResponses r, none⟩).Tame := fun t hid ↦
    ⟨quiet_routineResponses hhead t none, fun h ↦ hid h.2.2,
      not_accepted_of_head hhead (by decide), rfl⟩
  unfold startRoutine
  dsimp only
  split
  · rename_i hid
    have hquiet := quiet_routineResponses hhead (erase (r.payload.drop 4) s) none
    have herased : (exchange r (⟨erase (r.payload.drop 4) s, routineResponses r, none⟩ :
        Outcome σ)).Erased :=
      ⟨⟨hhead, by simp [exchange, responseCodes_routineResponses]⟩, hstart, hid⟩
    exact {
      session := fun ht ↦ Or.inr ⟨hquiet, herase.session _ s ▸ ht⟩
      unlocked := fun ht ↦ ⟨hquiet, Or.inl (herase.unlocked _ s ▸ ht)⟩
      erased := fun _ ↦ ⟨hquiet, Or.inr ⟨herased, hunlocked⟩⟩
      requested := fun ht ↦ ⟨hquiet, Or.inl (herase.requested _ s ▸ ht)⟩
      pending := fun ht ↦ absurd ht (by simp [herase.pending])
      fresh := fun _ htp ↦ absurd htp (by simp [herase.pending])
      file := herase.file _ s }
  · rename_i hid
    split
    · split
      · exact explained_negative (.refl s) r _ _
      · exact .of_within (.refl s) (htame s hid)
    · split
      · split
        · exact explained_negative (.refl s) r _ _
        · exact .of_within (within_markActivation s) (htame _ hid)
      · exact explained_negative (.refl s) r _ _

theorem explained_routineControl {erase : Bytes → σ → σ} (herase : Erases erase)
    (hhead : r.payload.head? = some sidRoutineControl)
    (hallowed : ∀ s now, allowed (update (.touchSession now) s) → allowed s) :
    Explained allowed s (routineControl erase r s).state
      (exchange r (routineControl erase r s)) := by
  apply explained_requireProgrammingSession hallowed
  intro s _
  split
  · exact explained_negative (.refl s) r _ _
  · split
    · exact explained_negative (.refl s) r _ _
    · rename_i hunlocked
      split
      · exact explained_negative (.refl s) r _ _
      · rename_i hstart
        exact explained_startRoutine herase hhead (not_not.mp hstart) (not_not.mp hunlocked)

/-! ## Transfer and reset -/

theorem explained_receiveBlock (hhead : r.payload.head? = some sidTransferData) :
    Explained allowed s (receiveBlock r s).state (exchange r (receiveBlock r s)) := by
  unfold receiveBlock
  dsimp only
  split
  · exact explained_negative (.refl s) r _ _
  · split
    · exact explained_negative (.refl s) r _ _
    · exact .of_within (within_receive _ s)
        (tame_of_head hhead (by decide) (by decide) (by decide) (by simp [reply]) rfl)

/-- What a server makes of the result of `RequestTransferExit`. -/
structure Concludes (conclude : Bool → σ → σ) : Prop where
  session : ∀ passed s, (base (conclude passed s)).currentSession = (base s).currentSession
  unlocked : ∀ passed s, (base (conclude passed s)).securityUnlocked = (base s).securityUnlocked
  erased : ∀ passed s, (base (conclude passed s)).eraseCompleted = (base s).eraseCompleted
  pending : ∀ passed s, (base (conclude passed s)).installPending = passed
  requested : ∀ passed s, downloadRequested (conclude passed s) →
    downloadRequested s ∧ passed = false
  file : ∀ passed s, firmwareFile (conclude passed s) = firmwareFile s

/-- An install is pending only because this exchange saved and verified the buffer. -/
theorem explained_saveAndVerify {conclude : Bool → σ → σ} (hconclude : Concludes conclude)
    (hhead : r.payload.head? = some sidRequestTransferExit) (ha : allowed s) :
    Explained allowed s (saveAndVerify conclude r s).state
      (exchange r (saveAndVerify conclude r s)) := by
  have hnot : ∀ (o : Outcome σ) other, sidRequestTransferExit ≠ other →
      ¬ (exchange r o).Accepted other := fun o other ↦ not_accepted_of_head hhead
  unfold saveAndVerify
  dsimp only
  cases horiginal : r.original with
  | error e =>
      have hquiet : (exchange r (⟨s, [responsePending sidRequestTransferExit,
          .save (firmwareFile s) (base s).receiver.firmwareData], some e⟩ : Outcome σ)).Quiet :=
        ⟨hnot _ _ (by decide), by simp [exchange, Exchange.Expired, responsePending]⟩
      exact {
        session := fun ht ↦ Or.inr ⟨hquiet, ht⟩
        unlocked := fun ht ↦ ⟨hquiet, Or.inl ht⟩
        erased := fun ht ↦ ⟨hquiet, Or.inl ht⟩
        requested := fun ht ↦ ⟨hquiet, Or.inl ht⟩
        pending := fun ht ↦ ⟨hquiet, Or.inl ⟨ht, fun h ↦ hnot _ _ (by decide) h.1,
          hnot _ _ (by decide), Or.inr ha⟩⟩
        fresh := fun ht htp ↦ ⟨ht, htp⟩
        file := rfl }
  | ok original =>
      dsimp only
      set passed := (base s).receiver.verify original with hpassed
      set x := exchange r (⟨conclude passed s, _, none⟩ : Outcome σ) with hx
      have hquiet : x.Quiet :=
        ⟨hnot _ _ (by decide), by simp [hx, exchange, Exchange.Expired, responsePending]⟩
      refine {
        session := fun ht ↦ Or.inr ⟨hquiet, hconclude.session passed s ▸ ht⟩
        unlocked := fun ht ↦ ⟨hquiet, Or.inl (hconclude.unlocked passed s ▸ ht)⟩
        erased := fun ht ↦ ⟨hquiet, Or.inl (hconclude.erased passed s ▸ ht)⟩
        requested := fun ht ↦ ⟨hquiet, Or.inl (hconclude.requested passed s ht).1⟩
        pending := fun ht ↦ ⟨hquiet, Or.inr ⟨(base s).receiver.firmwareData, ?_, ha, rfl⟩⟩
        fresh := fun ht htp ↦ ?_
        file := hconclude.file passed s }
      · have htrue : passed = true := (hconclude.pending passed s).symm.trans ht
        have hdigest : Hash.sha256 original = Hash.sha256 (base s).receiver.firmwareData :=
          of_decide_eq_true htrue
        refine ⟨⟨hhead, ?_⟩, by simp [hx, exchange], original, ?_, hdigest⟩
        · simp [hx, exchange, htrue, Action.responseCode?]
        · simp [hx, exchange, htrue]
      · exact absurd ((hconclude.pending passed s).symm.trans htp)
          (by simp [(hconclude.requested passed s ht).2])

theorem explained_resetEcu (hhead : r.payload.head? = some sidEcuReset) :
    Explained allowed s (resetEcu r s).state (exchange r (resetEcu r s)) := by
  have hnot : ∀ o : Outcome σ, ¬ (exchange r o).SessionControl := fun o ↦
    not_accepted_of_head hhead (by decide)
  unfold resetEcu
  split
  · obtain ⟨started, h⟩ := base_reset (update (.setSession 0x00)
      (update ProgrammingState.startInstall s))
    refine .of_cleared h (by simp) (by simp) fun hprog ↦ ?_
    rw [base_update] at hprog
    exact absurd hprog (by simp [ProgrammingState.setSession, defaultSessionProgramming])
  · exact explained_expired

theorem explained_ecuReset (hhead : r.payload.head? = some sidEcuReset)
    (hallowed : ∀ s now, allowed (update (.touchSession now) s) → allowed s) :
    Explained allowed s (ecuReset r s).state (exchange r (ecuReset r s)) :=
  explained_requireProgrammingSession hallowed fun _ _ ↦ explained_resetEcu hhead

/-! ## Launching -/

/-- Whether the outcome starts the install thread. -/
def Outcome.installs (o : Outcome σ) : Bool := o.actions.any Action.isInstall

omit [ProgrammingServer σ] in
theorem installs_of_launched {o : Outcome σ} (h : (exchange r o).Launched) : o.installs := by
  obtain ⟨a, ha, hi⟩ := h
  exact List.any_eq_true.mpr ⟨a, ha, hi⟩

/-- Nothing but responses, behind the closing of a session if need be. -/
def Outcome.Plain (o : Outcome σ) : Prop :=
  ∀ a ∈ o.actions, a = .expire ∨ ∃ payload, a = .send payload

omit [ProgrammingServer σ] in
theorem Outcome.Plain.installs {o : Outcome σ} (h : o.Plain) : o.installs = false := by
  refine List.any_eq_false.mpr fun a ha ↦ ?_
  rcases h a ha with rfl | ⟨payload, rfl⟩
  · exact Bool.false_ne_true
  · exact Bool.false_ne_true

omit [ProgrammingServer σ] in
theorem Outcome.Plain.saves {o : Outcome σ} (h : o.Plain) : (exchange r o).saves = [] := by
  refine List.filterMap_eq_nil_iff.mpr fun a ha ↦ ?_
  rcases h a ha with rfl | ⟨payload, rfl⟩
  · rfl
  · rfl

omit [ProgrammingServer σ] in
theorem plain_of_nil {s : σ} {error : Option PyError} : (Outcome.mk s [] error).Plain := by
  intro a ha
  cases ha

omit [ProgrammingServer σ] in
theorem plain_reply (payload : Bytes) (s : σ) : (reply payload s).Plain :=
  fun _ ha ↦ .inr ⟨payload, List.mem_singleton.mp ha⟩

omit [ProgrammingServer σ] in
theorem plain_negative (serviceId code : UInt8) (s : σ) : (negative serviceId code s).Plain :=
  plain_reply _ s

omit [ProgrammingServer σ] in
theorem plain_routineResponses {s : σ} {error : Option PyError} :
    (Outcome.mk s (routineResponses r) error).Plain := by
  intro a ha
  rcases List.mem_cons.mp ha with rfl | ha
  · exact .inr ⟨_, rfl⟩
  · exact .inr ⟨_, List.mem_singleton.mp ha⟩

/-- The session check either lets the service run, or answers negatively and does no more. -/
theorem requireProgrammingSession_cases (serviceId : UInt8) (service : σ → Outcome σ)
    (r : Request) (s : σ) :
    ((base s).sessionExpired r.expiryClock = false ∧
        (base s).currentSession = defaultSessionProgramming ∧
        requireProgrammingSession serviceId service r s =
          service (update (.touchSession r.touchClock) s)) ∨
      ∀ a ∈ (requireProgrammingSession serviceId service r s).actions,
        a = .expire ∨ a.responseCode? = some sidNegativeResponse := by
  unfold requireProgrammingSession
  rcases expireSessionIfNeeded_cases r s with ⟨hunexpired, he⟩ | ⟨-, he⟩
  · simp only [he]
    split
    · right
      simp [Outcome.after, negative, reply, Action.responseCode?]
    · rename_i hprog
      exact Or.inl ⟨hunexpired, not_not.mp hprog, rfl⟩
  · simp only [he]
    rw [if_pos (by rw [currentSession_expired]; decide)]
    right
    simp [Outcome.after, negative, reply, Action.responseCode?]

theorem requireProgrammingSession_of_programming (service : σ → Outcome σ)
    (hunexpired : (base s).sessionExpired r.expiryClock = false)
    (hsession : (base s).currentSession = defaultSessionProgramming) :
    requireProgrammingSession serviceId service r s =
      service (update (.touchSession r.touchClock) s) := by
  unfold requireProgrammingSession expireSessionIfNeeded
  rw [hunexpired, if_neg Bool.false_ne_true]
  dsimp only
  rw [if_neg (not_not.mpr hsession)]
  rfl

/-- A service behind the session check installs only in a running session. -/
theorem requireProgrammingSession_of_installs {service : σ → Outcome σ}
    (h : (requireProgrammingSession serviceId service r s).installs) :
    requireProgrammingSession serviceId service r s =
      service (update (.touchSession r.touchClock) s) := by
  rcases requireProgrammingSession_cases serviceId service r s with ⟨-, -, heq⟩ | hrefused
  · exact heq
  · obtain ⟨a, ha, hinstall⟩ := List.any_eq_true.mp h
    cases a with
    | install key file version => exact absurd (hrefused _ ha) (by simp [Action.responseCode?])
    | _ => exact absurd hinstall Bool.false_ne_true

theorem installs_requireProgrammingSession {service : σ → Outcome σ}
    (h : ∀ s, (service s).installs = false) :
    (requireProgrammingSession serviceId service r s).installs = false := by
  by_contra hne
  have hinstalls := Bool.eq_true_of_not_eq_false hne
  rw [requireProgrammingSession_of_installs hinstalls, h] at hne
  exact hne rfl

theorem plain_requireProgrammingSession {service : σ → Outcome σ} (h : ∀ s, (service s).Plain) :
    (requireProgrammingSession serviceId service r s).Plain := by
  rcases requireProgrammingSession_cases serviceId service r s with ⟨-, -, heq⟩ | hrefused
  · rw [heq]
    exact h _
  · intro a ha
    rcases hrefused a ha with hexpire | hresponse
    · exact .inl hexpire
    · cases a with
      | send payload => exact .inr ⟨payload, rfl⟩
      | _ => cases hresponse

theorem plain_diagnosticSessionControl : (diagnosticSessionControl r s).Plain := plain_reply _ _

theorem plain_testerPresent : (testerPresent r s).Plain := by
  unfold testerPresent
  rcases expireSessionIfNeeded_cases r s with ⟨-, he⟩ | ⟨-, he⟩
  · simp only [he]
    exact plain_reply _ _
  · simp only [he]
    intro a ha
    rcases List.mem_cons.mp ha with rfl | ha
    · exact .inl rfl
    · exact .inr ⟨_, List.mem_singleton.mp ha⟩

omit [ProgrammingServer σ] in
theorem plain_readDataByIdentifier : (readDataByIdentifier r s).Plain := by
  unfold readDataByIdentifier
  split_ifs
  · exact plain_negative _ _ _
  · exact plain_negative _ _ _
  · cases r.currentVersion with
    | error e => exact plain_of_nil
    | ok version => exact plain_reply _ _

theorem plain_requestSeed : (requestSeed r s).Plain := by
  unfold requestSeed
  split
  · exact plain_negative _ _ _
  · exact plain_reply _ _

theorem plain_rejectKey : (rejectKey r s).Plain := by
  unfold rejectKey
  dsimp only
  split
  · exact plain_negative _ _ _
  · exact plain_negative _ _ _

theorem plain_sendKey : (sendKey r s).Plain := by
  unfold sendKey
  split
  · exact plain_negative _ _ _
  · cases deriveSecurityKey r.security (base s).pendingSeed with
    | error e => exact plain_of_nil
    | ok key =>
        dsimp only
        split
        · exact plain_rejectKey
        · exact plain_reply _ _

theorem plain_securityAccess : (securityAccess r s).Plain := by
  apply plain_requireProgrammingSession
  intro s
  split_ifs
  · exact plain_negative _ _ _
  · exact plain_requestSeed
  · exact plain_sendKey
  · exact plain_negative _ _ _

theorem plain_startRoutine {erase : Bytes → σ → σ} : (startRoutine erase r s).Plain := by
  unfold startRoutine
  dsimp only
  split_ifs <;> first | exact plain_negative _ _ _ | exact plain_routineResponses

theorem plain_routineControl {erase : Bytes → σ → σ} : (routineControl erase r s).Plain := by
  apply plain_requireProgrammingSession
  intro s
  split_ifs
  · exact plain_negative _ _ _
  · exact plain_negative _ _ _
  · exact plain_startRoutine
  · exact plain_negative _ _ _

theorem plain_receiveBlock : (receiveBlock r s).Plain := by
  unfold receiveBlock
  dsimp only
  split_ifs
  · exact plain_negative _ _ _
  · exact plain_negative _ _ _
  · exact plain_reply _ _

theorem installs_saveAndVerify {conclude : Bool → σ → σ} :
    (saveAndVerify conclude r s).installs = false := by
  unfold saveAndVerify
  cases r.original <;> rfl

/-- The install thread starts only in a running session, on an install that is pending. -/
theorem ecuReset_of_installs (h : (ecuReset r s).installs) :
    (base s).installPending ∧ ¬ (exchange r (ecuReset r s)).Expired := by
  have heq := requireProgrammingSession_of_installs h
  have hinstalls : (resetEcu r (update (.touchSession r.touchClock) s)).installs := heq ▸ h
  have hready : (base s).installReady := by
    unfold resetEcu at hinstalls
    dsimp only at hinstalls
    split at hinstalls
    · rename_i hready
      simpa [ProgrammingState.touchSession, ProgrammingState.installReady] using hready
    · exact absurd hinstalls Bool.false_ne_true
  refine ⟨(of_decide_eq_true hready).1, ?_⟩
  rw [ecuReset, heq, resetEcu, if_pos (by rwa [base_update])]
  obtain ⟨key, version, hcall⟩ :=
    installCall_isInstall (update (ProgrammingState.touchSession r.touchClock) s)
  simp [exchange, Exchange.Expired, hcall]

end Services

end VehicleOta.Uds
