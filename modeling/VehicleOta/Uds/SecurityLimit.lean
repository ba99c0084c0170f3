import VehicleOta.Trace.Limiter
import VehicleOta.Uds.CanSafety
import VehicleOta.Uds.DoipServer

/-!
# The limit on keys

SecurityAccess as a limiter of attempts, once for both servers.  A server is armed while a seed is
pending or the access is unlocked.
-/

namespace VehicleOta.Uds

open ProgrammingServer TraceLogic

/-! ## Evaluated keys -/

def Exchange.KeyRejected (x : Exchange) : Prop :=
  x.request.head? = some sidSecurityAccess ∧ x.request.getD 1 0 = securityAccessSendKey ∧
    (.send [sidNegativeResponse, sidSecurityAccess, nrcInvalidKey] ∈ x.actions ∨
      .send [sidNegativeResponse, sidSecurityAccess, nrcExceedNumberOfAttempts] ∈ x.actions)

def Exchange.KeyEvaluated (x : Exchange) : Prop := x.KeyRejected ∨ x.KeyAccepted

instance (x : Exchange) : Decidable x.KeyRejected := inferInstanceAs (Decidable (_ ∧ _ ∧ _))

instance (x : Exchange) : Decidable x.KeyAccepted := inferInstanceAs (Decidable (_ ∧ _))

section Step

variable {σ : Type} [ProgrammingServer σ] {s t : σ} {r : Request} {serviceId : UInt8}
  {x : Exchange}

def Armed (s : σ) : Prop := (base s).pendingSeed ≠ [] ∨ (base s).securityUnlocked

/-- The attributes that only SecurityAccess assigns, but for a reset. -/
structure Secured (s t : σ) : Prop where
  failures : (base t).securityFailures = (base s).securityFailures
  locked : (base t).securityLockedUntil = (base s).securityLockedUntil
  armed : Armed t → Armed s

/-- What becomes of the attributes of SecurityAccess. -/
inductive SecurityStep (s t : σ) (r : Request) (x : Exchange) : Prop where
  | idle (h : Secured s t) (hx : ¬ x.KeyEvaluated)
  | seed (hfailures : (base t).securityFailures = (base s).securityFailures)
      (hlocked : (base t).securityLockedUntil = (base s).securityLockedUntil)
      (hfree : (base s).securityLockedUntil ≤ r.securityClock) (hx : ¬ x.KeyEvaluated)
  | accepted (hs : Armed s) (hfailures : (base t).securityFailures = 0)
      (hlocked : (base t).securityLockedUntil = (base s).securityLockedUntil)
      (hx : x.KeyAccepted ∧ ¬ x.KeyRejected)
  | rejected (hs : Armed s) (ht : ¬ Armed t)
      (hfailures : (base t).securityFailures = (base s).securityFailures + 1)
      (hlocked : (base t).securityLockedUntil =
        if securityAttemptLimit ≤ (base t).securityFailures then
          r.securityClock + securityLockoutSeconds
        else (base s).securityLockedUntil)
      (hx : x.KeyRejected ∧ ¬ x.KeyAccepted)

theorem Secured.refl (s : σ) : Secured s s := ⟨rfl, rfl, id⟩

theorem secured_update {f : ProgrammingState → ProgrammingState}
    (hfailures : (f (base s)).securityFailures = (base s).securityFailures)
    (hlocked : (f (base s)).securityLockedUntil = (base s).securityLockedUntil)
    (hseed : (f (base s)).pendingSeed = (base s).pendingSeed)
    (hunlocked : (f (base s)).securityUnlocked = (base s).securityUnlocked) :
    Secured s (update f s) where
  failures := by rw [base_update, hfailures]
  locked := by rw [base_update, hlocked]
  armed h := by
    rw [Armed, base_update, hseed, hunlocked] at h
    exact h

/-- A reset disarms, and clears neither the count nor the lock. -/
theorem secured_reset (session : UInt8) :
    Secured s (resetProgrammingState (update (.setSession session) s)) := by
  obtain ⟨started, h⟩ := base_reset (update (.setSession session) s)
  refine ⟨?_, ?_, fun harmed ↦ ?_⟩
  · rw [h, base_update]
    rfl
  · rw [h, base_update]
    rfl
  · rw [Armed, h] at harmed
    simp [ProgrammingState.reset] at harmed

theorem Secured.trans {u : σ} (h : Secured s t) (h' : Secured t u) : Secured s u :=
  ⟨h'.failures.trans h.failures, h'.locked.trans h.locked, fun hu ↦ h.armed (h'.armed hu)⟩

theorem not_keyEvaluated_of_head (hhead : x.request.head? = some serviceId)
    (hne : serviceId ≠ sidSecurityAccess) : ¬ x.KeyEvaluated := by
  rintro (h | h)
  · exact hne (Option.some.inj (hhead.symm.trans h.1))
  · exact hne (Option.some.inj (hhead.symm.trans h.1.1))

/-- A negative response with another code is no verdict on a key. -/
theorem not_keyEvaluated_of_actions {code : UInt8} (hinvalid : code ≠ nrcInvalidKey)
    (hexceeded : code ≠ nrcExceedNumberOfAttempts)
    (hactions : ∀ a ∈ x.actions, a = .expire ∨ a = .send [sidNegativeResponse, serviceId, code]) :
    ¬ x.KeyEvaluated := by
  rintro (⟨-, -, h | h⟩ | ⟨⟨-, h⟩, -⟩)
  · rcases hactions _ h with h | h
    · cases h
    · simp only [Action.send.injEq, List.cons.injEq, and_true, true_and] at h
      exact hinvalid h.2.symm
  · rcases hactions _ h with h | h
    · cases h
    · simp only [Action.send.injEq, List.cons.injEq, and_true, true_and] at h
      exact hexceeded h.2.symm
  · obtain ⟨a, ha, hcode⟩ := List.mem_map.mp h
    rcases hactions a ha with rfl | rfl
    · cases hcode
    · exact absurd hcode (by simp [Action.responseCode?]; decide)

omit [ProgrammingServer σ] in
theorem not_keyEvaluated_negative {code : UInt8} (hinvalid : code ≠ nrcInvalidKey)
    (hexceeded : code ≠ nrcExceedNumberOfAttempts) (r : Request) (s : σ) :
    ¬ (exchange r (negative serviceId code s)).KeyEvaluated :=
  not_keyEvaluated_of_actions hinvalid hexceeded fun _ ha ↦ Or.inr (List.mem_singleton.mp ha)

theorem securityStep_requireProgrammingSession {service : σ → Outcome σ}
    (hservice : ∀ s, SecurityStep s (service s).state r (exchange r (service s))) :
    SecurityStep s (requireProgrammingSession serviceId service r s).state r
      (exchange r (requireProgrammingSession serviceId service r s)) := by
  unfold requireProgrammingSession
  rcases expireSessionIfNeeded_cases r s with ⟨-, he⟩ | ⟨-, he⟩
  · simp only [he]
    split
    · exact .idle (.refl s) (not_keyEvaluated_negative (by decide) (by decide) r s)
    · have htouch : Secured s (update (.touchSession r.touchClock) s) :=
        secured_update rfl rfl rfl rfl
      have hlocked : (base (update (.touchSession r.touchClock) s)).securityLockedUntil =
          (base s).securityLockedUntil := htouch.locked
      cases hservice (update (.touchSession r.touchClock) s) with
      | idle h hx => exact .idle (htouch.trans h) hx
      | seed hfailures h hfree hx =>
          exact .seed (hfailures.trans htouch.failures) (h.trans hlocked) (hlocked ▸ hfree) hx
      | accepted hs hfailures h hx =>
          exact .accepted (htouch.armed hs) hfailures (h.trans hlocked) hx
      | rejected hs ht hfailures h hx =>
          refine .rejected (htouch.armed hs) ht (hfailures.trans (by rw [htouch.failures])) ?_ hx
          rw [hlocked] at h
          exact h
  · simp only [he]
    rw [if_pos (by rw [currentSession_expired]; decide)]
    refine .idle (secured_reset 0x00) ?_
    refine @not_keyEvaluated_of_actions serviceId _ nrcServiceNotSupportedInActiveSession (by decide)
      (by decide) fun a ha ↦ ?_
    rcases List.mem_cons.mp ha with rfl | ha
    · exact Or.inl rfl
    · exact Or.inr (List.mem_singleton.mp ha)

theorem securityStep_negative {code : UInt8} (hinvalid : code ≠ nrcInvalidKey)
    (hexceeded : code ≠ nrcExceedNumberOfAttempts) :
    SecurityStep s s r (exchange r (negative serviceId code s)) :=
  .idle (.refl s) (not_keyEvaluated_negative hinvalid hexceeded r s)

/-! ## The services -/

theorem securityStep_diagnosticSessionControl
    (hhead : r.payload.head? = some sidDiagnosticSessionControl) :
    SecurityStep s (diagnosticSessionControl r s).state r
      (exchange r (diagnosticSessionControl r s)) :=
  .idle ((secured_reset _).trans (secured_update rfl rfl rfl rfl))
    (not_keyEvaluated_of_head hhead (by decide))

theorem securityStep_testerPresent (hhead : r.payload.head? = some sidTesterPresent) :
    SecurityStep s (testerPresent r s).state r (exchange r (testerPresent r s)) := by
  refine .idle ?_ (not_keyEvaluated_of_head hhead (by decide))
  unfold testerPresent
  rcases expireSessionIfNeeded_cases r s with ⟨-, he⟩ | ⟨-, he⟩
  · simp only [he]
    split
    · exact secured_update rfl rfl rfl rfl
    · exact .refl s
  · simp only [he]
    rw [if_neg (by rw [currentSession_expired]; decide)]
    exact secured_reset 0x00

theorem securityStep_readDataByIdentifier
    (hhead : r.payload.head? = some sidReadDataByIdentifier) :
    SecurityStep s (readDataByIdentifier r s).state r (exchange r (readDataByIdentifier r s)) := by
  refine .idle ?_ (not_keyEvaluated_of_head hhead (by decide))
  unfold readDataByIdentifier
  split
  · exact .refl s
  · split
    · exact .refl s
    · cases r.currentVersion <;> exact .refl s

theorem securityStep_requestSeed (hsub : r.payload.getD 1 0 = securityAccessRequestSeed) :
    SecurityStep s (requestSeed r s).state r (exchange r (requestSeed r s)) := by
  have hnot : ∀ o : Outcome σ, ¬ (exchange r o).KeyEvaluated := by
    rintro o (h | h)
    · exact absurd (hsub.symm.trans h.2.1) (by decide)
    · exact absurd (hsub.symm.trans h.2) (by decide)
  unfold requestSeed
  split
  · exact .idle (.refl s) (hnot _)
  · rename_i hfree
    refine .seed ?_ ?_ (not_lt.mp hfree) (hnot _)
    · rw [reply_state, base_update]
      rfl
    · rw [reply_state, base_update]
      rfl

theorem not_armed_of_base {b : ProgrammingState} (h : base t = b) (hseed : b.pendingSeed = [])
    (hunlocked : b.securityUnlocked = false) : ¬ Armed t := by
  rw [Armed, h, hseed, hunlocked]
  simp

theorem securityStep_rejectKey (hhead : r.payload.head? = some sidSecurityAccess)
    (hsub : r.payload.getD 1 0 = securityAccessSendKey) (hs : Armed s) :
    SecurityStep s (rejectKey r s).state r (exchange r (rejectKey r s)) := by
  have hnot : ∀ (code : UInt8) (t : σ),
      ¬ (exchange r (negative sidSecurityAccess code t)).KeyAccepted := by
    rintro code t ⟨⟨-, h⟩, -⟩
    simp [exchange, negative, reply, Action.responseCode?, sidNegativeResponse, positiveResponseSid,
      sidSecurityAccess] at h
  unfold rejectKey
  dsimp only
  split
  · rename_i hlimit
    have hbase : base (update (.lockSecurity (r.securityClock + securityLockoutSeconds))
        (update ProgrammingState.countFailure s)) =
          ((base s).countFailure).lockSecurity (r.securityClock + securityLockoutSeconds) := by
      rw [base_update, base_update]
    rw [base_update] at hlimit
    refine .rejected hs (not_armed_of_base hbase rfl rfl) ?_ ?_
      ⟨⟨hhead, hsub, Or.inr (List.mem_singleton.mpr rfl)⟩, hnot _ _⟩
    · rw [negative, reply_state, hbase]
      rfl
    · rw [negative, reply_state, hbase, if_pos]
      · rfl
      · exact hlimit
  · rename_i hlimit
    have hbase : base (update ProgrammingState.countFailure s) = (base s).countFailure :=
      base_update _ _
    rw [hbase] at hlimit
    refine .rejected hs (not_armed_of_base hbase rfl rfl) ?_ ?_
      ⟨⟨hhead, hsub, Or.inl (List.mem_singleton.mpr rfl)⟩, hnot _ _⟩
    · rw [negative, reply_state, hbase]
      rfl
    · rw [negative, reply_state, hbase, if_neg hlimit]
      rfl

theorem securityStep_sendKey (hhead : r.payload.head? = some sidSecurityAccess)
    (hsub : r.payload.getD 1 0 = securityAccessSendKey) :
    SecurityStep s (sendKey r s).state r (exchange r (sendKey r s)) := by
  unfold sendKey
  split
  · exact securityStep_negative (by decide) (by decide)
  · rename_i hseed
    have hs : Armed s := Or.inl (by simpa using hseed)
    cases deriveSecurityKey r.security (base s).pendingSeed with
    | error e =>
        refine .idle (.refl s) ?_
        rintro (⟨-, -, h | h⟩ | ⟨⟨-, h⟩, -⟩)
        · cases h
        · cases h
        · cases h
    | ok key =>
        dsimp only
        split
        · exact securityStep_rejectKey hhead hsub hs
        · refine .accepted hs ?_ ?_ ⟨⟨⟨hhead, List.mem_singleton.mpr rfl⟩, hsub⟩, ?_⟩
          · rw [reply_state, base_update]
            rfl
          · rw [reply_state, base_update]
            rfl
          · rintro ⟨-, -, h | h⟩
            · exact absurd (List.mem_singleton.mp h) (by decide)
            · exact absurd (List.mem_singleton.mp h) (by decide)

theorem securityStep_securityAccess (hhead : r.payload.head? = some sidSecurityAccess) :
    SecurityStep s (securityAccess r s).state r (exchange r (securityAccess r s)) := by
  apply securityStep_requireProgrammingSession
  intro s
  split
  · exact securityStep_negative (by decide) (by decide)
  · split
    · rename_i hsub
      exact securityStep_requestSeed hsub
    · split
      · rename_i hsub
        exact securityStep_sendKey hhead hsub
      · exact securityStep_negative (by decide) (by decide)

/-- A service that only lets the attributes be, behind the session check. -/
theorem securityStep_of_secured {service : σ → Outcome σ} (hhead : r.payload.head? = some serviceId)
    (hne : serviceId ≠ sidSecurityAccess) (hservice : ∀ s, Secured s (service s).state) :
    SecurityStep s (requireProgrammingSession serviceId service r s).state r
      (exchange r (requireProgrammingSession serviceId service r s)) :=
  securityStep_requireProgrammingSession fun s ↦
    .idle (hservice s) (not_keyEvaluated_of_head hhead hne)

theorem secured_startRoutine {erase : Bytes → σ → σ} (herase : ∀ data s, Secured s (erase data s)) :
    Secured s (startRoutine erase r s).state := by
  unfold startRoutine
  dsimp only
  split
  · exact herase _ s
  · split
    · split <;> exact .refl s
    · split
      · split
        · exact .refl s
        · exact secured_update rfl rfl rfl rfl
      · exact .refl s

theorem secured_receiveBlock : Secured s (receiveBlock r s).state := by
  unfold receiveBlock
  dsimp only
  split
  · exact .refl s
  · split
    · exact .refl s
    · exact secured_update rfl rfl rfl rfl

theorem secured_saveAndVerify {conclude : Bool → σ → σ}
    (hconclude : ∀ passed s, Secured s (conclude passed s)) :
    Secured s (saveAndVerify conclude r s).state := by
  unfold saveAndVerify
  cases r.original with
  | error e => exact .refl s
  | ok original => exact hconclude _ s

theorem secured_resetEcu : Secured s (resetEcu r s).state := by
  unfold resetEcu
  dsimp only
  split
  · exact (secured_update rfl rfl rfl rfl).trans (secured_reset 0x00)
  · exact secured_reset 0x00

theorem securityStep_routineControl {erase : Bytes → σ → σ}
    (herase : ∀ data s, Secured s (erase data s))
    (hhead : r.payload.head? = some sidRoutineControl) :
    SecurityStep s (routineControl erase r s).state r (exchange r (routineControl erase r s)) := by
  refine securityStep_of_secured hhead (by decide) fun s ↦ ?_
  split
  · exact .refl s
  · split
    · exact .refl s
    · split
      · exact .refl s
      · exact secured_startRoutine herase

theorem securityStep_ecuReset (hhead : r.payload.head? = some sidEcuReset) :
    SecurityStep s (ecuReset r s).state r (exchange r (ecuReset r s)) :=
  securityStep_of_secured hhead (by decide) fun _ ↦ secured_resetEcu

/-! ## Runs -/

/-- A step with the request in its event, and with it the readings of the clock. -/
def timedStep (handle : Request → σ → Outcome σ) (s : σ) (r : Request) : σ × (Request × Exchange) :=
  ((step handle s r).1, (r, (step handle s r).2))

def clockOf (e : Request × Exchange) : ℚ := e.1.securityClock

def securityLimits : Limits σ ℚ where
  failures s := (base s).securityFailures
  lockedUntil s := (base s).securityLockedUntil
  armed := Armed

theorem limiter_of_securityStep {handle : Request → σ → Outcome σ}
    (h : ∀ r s, SecurityStep s (handle r s).state r (exchange r (handle r s))) :
    Limiter (timedStep handle) clockOf (fun e ↦ e.2.KeyRejected) (fun e ↦ e.2.KeyAccepted)
      securityAttemptLimit securityLockoutSeconds (securityLimits (σ := σ)) where
  counts s r hrejected := by
    cases h r s with
    | idle _ hx => exact absurd (Or.inl hrejected) hx
    | seed _ _ _ hx => exact absurd (Or.inl hrejected) hx
    | accepted _ _ _ hx => exact absurd hrejected hx.2
    | rejected _ _ hfailures _ _ => exact hfailures
  clears s r haccepted := by
    cases h r s with
    | idle _ hx => exact absurd (Or.inr haccepted) hx
    | seed _ _ _ hx => exact absurd (Or.inr haccepted) hx
    | accepted _ hfailures _ _ => exact hfailures
    | rejected _ _ _ _ hx => exact absurd haccepted hx.2
  keeps s r hrejected haccepted := by
    cases h r s with
    | idle h _ => exact h.failures
    | seed hfailures _ _ _ => exact hfailures
    | accepted _ _ _ hx => exact absurd hx.1 haccepted
    | rejected _ _ _ _ hx => exact absurd hx.1 hrejected
  exclusive s r haccepted := by
    cases h r s with
    | idle _ hx => exact absurd (Or.inr haccepted) hx
    | seed _ _ _ hx => exact absurd (Or.inr haccepted) hx
    | accepted _ _ _ hx => exact hx.2
    | rejected _ _ _ _ hx => exact absurd haccepted hx.2
  locks s r hrejected hlimit := by
    cases h r s with
    | idle _ hx => exact absurd (Or.inl hrejected) hx
    | seed _ _ _ hx => exact absurd (Or.inl hrejected) hx
    | accepted _ _ _ hx => exact absurd hrejected hx.2
    | rejected _ _ _ hlocked _ => exact hlocked.trans (if_pos hlimit)
  unlocks s r hbelow := by
    cases h r s with
    | idle h _ => exact h.locked
    | seed _ hlocked _ _ => exact hlocked
    | accepted _ _ hlocked _ => exact hlocked
    | rejected _ _ _ hlocked hx => exact hlocked.trans (if_neg (not_le.mpr (hbelow hx.1)))
  evaluates s r hevaluated := by
    cases h r s with
    | idle _ hx => exact absurd hevaluated hx
    | seed _ _ _ hx => exact absurd hevaluated hx
    | accepted hs _ _ _ => exact hs
    | rejected hs _ _ _ _ => exact hs
  disarms s r hrejected := by
    cases h r s with
    | idle _ hx => exact absurd (Or.inl hrejected) hx
    | seed _ _ _ hx => exact absurd (Or.inl hrejected) hx
    | accepted _ _ _ hx => exact absurd hrejected hx.2
    | rejected _ ht _ _ _ => exact ht
  arms s r harmed := by
    cases h r s with
    | idle h _ => exact Or.inl (h.armed harmed)
    | seed _ _ hfree _ => exact Or.inr hfree
    | accepted hs _ _ _ => exact Or.inl hs
    | rejected _ ht _ _ _ => exact absurd harmed ht

omit [ProgrammingServer σ] in
theorem requests_of_run (handle : Request → σ → Outcome σ) (s : σ) (requests : List Request) :
    (run (timedStep handle) s requests).2.map Prod.fst = requests := by
  induction requests using List.reverseRecOn with
  | nil => rfl
  | append_singleton requests r ih =>
      rw [run_concat, List.map_append, ih]
      rfl

/-- From the limit on, two evaluations behind a rejected key are a lockout apart; and before the
end of a lockout there is neither a pending seed nor an unlocked access. -/
def AttemptsLimited (handle : Request → σ → Outcome σ) (s : σ) (requests : List Request) : Prop :=
  (∀ past x middle y rest, (run (timedStep handle) s requests).2 = past ++ x :: middle ++ y :: rest →
    x.2.KeyRejected → securityAttemptLimit ≤ failuresSince (fun e : Request × Exchange ↦
      e.2.KeyRejected) (fun e ↦ e.2.KeyAccepted) (past ++ [x]) → y.2.KeyEvaluated →
    x.1.securityClock + securityLockoutSeconds ≤ y.1.securityClock) ∧
  ∀ now, (∀ r ∈ requests, r.securityClock ≤ now) →
    now < (base (run (timedStep handle) s requests).1).securityLockedUntil →
    (base (run (timedStep handle) s requests).1).pendingSeed = [] ∧
      (base (run (timedStep handle) s requests).1).securityUnlocked = false

theorem attemptsLimited_of_securityStep {handle : Request → σ → Outcome σ}
    (h : ∀ r s, SecurityStep s (handle r s).state r (exchange r (handle r s))) (hs : base s = {})
    (requests : List Request)
    (hclock : requests.Pairwise fun r r' ↦ r.securityClock ≤ r'.securityClock) :
    AttemptsLimited handle s requests := by
  have htimes : (run (timedStep handle) s requests).2.Pairwise fun x y ↦ clockOf x ≤ clockOf y := by
    rw [← requests_of_run handle s requests, List.pairwise_map] at hclock
    exact hclock
  have harmed : ¬ Armed s := not_armed_of_base hs rfl rfl
  have hremembers := (limiter_of_securityStep h).remembers_run
    (show (base s).securityFailures = 0 by rw [hs]) harmed requests htimes
  refine ⟨fun past x middle y rest heq hx hcount hy ↦
    hremembers.separated past x middle y rest heq ⟨hx, hcount⟩ hy, fun now hnow hlocked ↦ ?_⟩
  have hnot : ¬ Armed (run (timedStep handle) s requests).1 := by
    refine fun harmed ↦ absurd (hremembers.armed harmed now fun e he ↦ hnow e.1 ?_)
      (not_le.mpr hlocked)
    rw [← requests_of_run handle s requests]
    exact List.mem_map_of_mem he
  obtain ⟨hseed, hunlocked⟩ := not_or.mp hnot
  exact ⟨not_not.mp hseed, Bool.eq_false_iff.mpr hunlocked⟩

end Step

/-! ## The CAN programmer -/

namespace UDSCanProgrammer

variable {p : UDSCanProgrammer} {r : Request}

theorem secured_of_base {q : UDSCanProgrammer}
    (hfailures : q.base.securityFailures = p.base.securityFailures)
    (hlocked : q.base.securityLockedUntil = p.base.securityLockedUntil)
    (hseed : q.base.pendingSeed = p.base.pendingSeed)
    (hunlocked : q.base.securityUnlocked = p.base.securityUnlocked) : Secured p q :=
  ⟨hfailures, hlocked, fun h ↦ h.imp (fun h ↦ hseed ▸ h) fun h ↦ hunlocked ▸ h⟩

theorem securityStep_requestDownload (hhead : r.payload.head? = some sidRequestDownload) :
    SecurityStep p (requestDownload r p).state r (exchange r (requestDownload r p)) := by
  refine securityStep_of_secured hhead (by decide) fun p ↦ ?_
  split
  · exact .refl p
  · split
    · exact .refl p
    · split
      · exact .refl p
      · exact secured_of_base rfl rfl rfl rfl

theorem securityStep_transferData (hhead : r.payload.head? = some sidTransferData) :
    SecurityStep p (transferData r p).state r (exchange r (transferData r p)) := by
  refine securityStep_of_secured hhead (by decide) fun p ↦ ?_
  split
  · exact .refl p
  · split
    · exact .refl p
    · split
      · exact .refl p
      · exact secured_receiveBlock

theorem securityStep_requestTransferExit (hhead : r.payload.head? = some sidRequestTransferExit) :
    SecurityStep p (requestTransferExit r p).state r (exchange r (requestTransferExit r p)) := by
  refine securityStep_of_secured hhead (by decide) fun p ↦ ?_
  split
  · exact .refl p
  · split
    · exact .refl p
    · split
      · exact .refl p
      · exact secured_saveAndVerify fun _ _ ↦ secured_of_base rfl rfl rfl rfl

theorem securityStep_serve {serviceId : UInt8} (hhead : r.payload.head? = some serviceId) :
    SecurityStep p (serve serviceId r p).state r (exchange r (serve serviceId r p)) := by
  have hserved := served serviceId r p
  generalize serve serviceId r p = o at hserved ⊢
  cases hserved with
  | diagnosticSessionControl => exact securityStep_diagnosticSessionControl hhead
  | testerPresent => exact securityStep_testerPresent hhead
  | readDataByIdentifier => exact securityStep_readDataByIdentifier hhead
  | securityAccess => exact securityStep_securityAccess hhead
  | routineControl =>
      exact securityStep_routineControl (fun _ _ ↦ secured_of_base rfl rfl rfl rfl) hhead
  | requestDownload => exact securityStep_requestDownload hhead
  | transferData => exact securityStep_transferData hhead
  | requestTransferExit => exact securityStep_requestTransferExit hhead
  | ecuReset => exact securityStep_ecuReset hhead
  | unsupported => exact securityStep_negative (by decide) (by decide)

theorem securityStep_handleUds (r : Request) (p : UDSCanProgrammer) :
    SecurityStep p (handleUds r p).state r (exchange r (handleUds r p)) := by
  cases hhead : r.payload.head? with
  | none =>
      rw [handleUds_of_nil (List.head?_eq_none_iff.mp hhead)]
      refine .idle (.refl p) ?_
      rintro (h | h)
      · simp [exchange, Exchange.KeyRejected, hhead] at h
      · simp [exchange, Exchange.KeyAccepted, Exchange.Accepted, hhead] at h
  | some serviceId =>
      rcases handleUds_cases hhead with ⟨-, -, heq⟩ | ⟨-, heq⟩
      · rw [heq]
        exact securityStep_serve hhead
      · rw [heq]
        exact securityStep_negative (by decide) (by decide)

end UDSCanProgrammer

/-! ## The gateway -/

namespace ECUContext

variable {ecu : ECUContext} {r : Request} {blockLength : ℕ}

theorem secured_of_base {ecu' : ECUContext}
    (hfailures : ecu'.base.securityFailures = ecu.base.securityFailures)
    (hlocked : ecu'.base.securityLockedUntil = ecu.base.securityLockedUntil)
    (hseed : ecu'.base.pendingSeed = ecu.base.pendingSeed)
    (hunlocked : ecu'.base.securityUnlocked = ecu.base.securityUnlocked) : Secured ecu ecu' :=
  ⟨hfailures, hlocked, fun h ↦ h.imp (fun h ↦ hseed ▸ h) fun h ↦ hunlocked ▸ h⟩

theorem securityStep_requestDownload (hhead : r.payload.head? = some sidRequestDownload) :
    SecurityStep ecu (requestDownload blockLength r ecu).state r
      (exchange r (requestDownload blockLength r ecu)) := by
  refine securityStep_of_secured hhead (by decide) fun ecu ↦ ?_
  split
  · exact .refl ecu
  · exact secured_of_base rfl rfl rfl rfl

theorem securityStep_transferData (hhead : r.payload.head? = some sidTransferData) :
    SecurityStep ecu (transferData r ecu).state r (exchange r (transferData r ecu)) := by
  refine securityStep_of_secured hhead (by decide) fun ecu ↦ ?_
  split
  · exact .refl ecu
  · split
    · exact .refl ecu
    · exact secured_receiveBlock

theorem securityStep_requestTransferExit (hhead : r.payload.head? = some sidRequestTransferExit) :
    SecurityStep ecu (requestTransferExit r ecu).state r
      (exchange r (requestTransferExit r ecu)) := by
  refine securityStep_of_secured hhead (by decide) fun ecu ↦ ?_
  split
  · exact .refl ecu
  · split
    · exact .refl ecu
    · exact secured_saveAndVerify fun _ _ ↦ secured_of_base rfl rfl rfl rfl

theorem securityStep_handle (blockLength : ℕ) (r : Request) (ecu : ECUContext) :
    SecurityStep ecu (handle blockLength r ecu).state r (exchange r (handle blockLength r ecu)) := by
  have hunhandled : SecurityStep ecu ecu r (exchange r (⟨ecu, [], none⟩ : Outcome ECUContext)) := by
    refine .idle (.refl ecu) ?_
    rintro (⟨-, -, h | h⟩ | ⟨⟨-, h⟩, -⟩) <;> cases h
  cases hhead : r.payload.head? with
  | none =>
      rw [handle_of_nil (List.head?_eq_none_iff.mp hhead)]
      exact hunhandled
  | some serviceId =>
      have hserved := served blockLength serviceId r ecu
      rw [handle_of_head hhead]
      generalize serve blockLength serviceId r ecu = o at hserved ⊢
      cases hserved with
      | diagnosticSessionControl => exact securityStep_diagnosticSessionControl hhead
      | testerPresent => exact securityStep_testerPresent hhead
      | readDataByIdentifier => exact securityStep_readDataByIdentifier hhead
      | securityAccess => exact securityStep_securityAccess hhead
      | routineControl =>
          exact securityStep_routineControl (fun _ _ ↦ secured_of_base rfl rfl rfl rfl) hhead
      | requestDownload => exact securityStep_requestDownload hhead
      | transferData => exact securityStep_transferData hhead
      | requestTransferExit => exact securityStep_requestTransferExit hhead
      | ecuReset => exact securityStep_ecuReset hhead
      | unhandled => exact hunhandled

end ECUContext

/-- On the CAN programmer and in every context of the gateway, whatever is requested. -/
theorem key_attempts_limited (blockLength ecuId : ℕ) (ecuKey file version key : String)
    (address : ℕ) (profile : Profile) (requests : List Request)
    (hclock : requests.Pairwise fun r r' ↦ r.securityClock ≤ r'.securityClock) :
    AttemptsLimited UDSCanProgrammer.handleUds (UDSCanProgrammer.initial ecuId ecuKey file version)
        requests ∧
      AttemptsLimited (ECUContext.handle blockLength) (ECUContext.initial key address profile)
        requests :=
  ⟨attemptsLimited_of_securityStep UDSCanProgrammer.securityStep_handleUds rfl requests hclock,
    attemptsLimited_of_securityStep (ECUContext.securityStep_handle blockLength) rfl requests hclock⟩

/-- Three wrong keys for the BCM. -/
def wrongKeys : List Request :=
  { payload := [0x10, 0x02] } ::
    ((List.range 3).flatMap fun n ↦
      [{ payload := [0x27, 0x01], securityClock := 2 * n + 1 },
       { payload := [0x27, 0x02, 0, 0, 0, 0], securityClock := 2 * n + 2 }])

theorem key_attempts_limited_bcm :
    AttemptsLimited UDSCanProgrammer.handleUds
        (UDSCanProgrammer.initial 0x202 "bcm" "bcm_v2.bin" "2.0.0") wrongKeys ∧
      AttemptsLimited (ECUContext.handle 8192)
        (ECUContext.initial "bcm" 0x1002 ⟨"bcm_v2.bin", "2.0.0"⟩) wrongKeys :=
  key_attempts_limited 8192 0x202 "bcm" "bcm_v2.bin" "2.0.0" "bcm" 0x1002 ⟨"bcm_v2.bin", "2.0.0"⟩
    wrongKeys (by decide +kernel)

end VehicleOta.Uds
