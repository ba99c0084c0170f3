import VehicleOta.Uds.CanSafety
import VehicleOta.Uds.DoipSafety
import VehicleOta.Uds.DownloadServer

/-!
# The two servers side by side

The CAN programmer and the flash proxy of the gateway get the same requests.  They answer alike
where the runtime control of the ECU lets everything through and where the checks that the
gateway lacks would not refuse: the format of `RequestDownload`, and the requested download behind
`TransferData` and `RequestTransferExit`.
-/

namespace VehicleOta.Uds

open ProgrammingServer TraceLogic

/-! ## What is compared -/

/-- A response without the address in a seed and without the block length. -/
def commonPart (payload : Bytes) : Bytes :=
  if payload.take 2 = [positiveResponseSid sidSecurityAccess, securityAccessRequestSeed] then
    payload.take 2 ++ payload.drop 4
  else if payload.head? = some (positiveResponseSid sidRequestDownload) then payload.take 3
  else payload

/-- Files, versions and keys are those of each ECU. -/
def Action.common : Action → Action
  | .send payload => .send (commonPart payload)
  | .save _ data => .save "" data
  | .install _ _ _ => .install "" "" ""
  | a => a

/-- Two exchanges with the same responses, bytes, verdicts and installs. -/
def Exchange.Alike (x y : Exchange) : Prop :=
  x.actions.map Action.common = y.actions.map Action.common ∧ x.error = y.error

instance (x y : Exchange) : Decidable (x.Alike y) := inferInstanceAs (Decidable (_ ∧ _))

/-! ## The relation between the attributes -/

/-- The attributes of the gateway next to the attributes `b` of the programmer. -/
def ProgrammingState.shadow (seed : Bytes) (started : Bool) (b : ProgrammingState) :
    ProgrammingState :=
  { b with
    receiver := { b.receiver with expectedSize := none }
    pendingSeed := seed
    installStarted := started }

structure Shadows (p : UDSCanProgrammer) (seed : Bytes) (started : Bool) : Prop where
  seed : seed = [] ↔ p.base.pendingSeed = []
  idle : p.base.installStarted = false
  started : p.base.installPending → started = false
  limit : p.downloadRequested → p.base.receiver.expectedSize = some p.base.expectedSize
  received : p.downloadRequested → p.base.receivedSize = p.base.receiver.buffer.length
  fits : p.downloadRequested → p.base.receivedSize ≤ p.base.expectedSize

def Agrees (p : UDSCanProgrammer) (ecu : ECUContext) : Prop :=
  ∃ seed started, ecu.base = p.base.shadow seed started ∧ Shadows p seed started

/-- Outcomes that cannot be told apart, in states that agree. -/
structure Matched (o : Outcome UDSCanProgrammer) (o' : Outcome ECUContext) : Prop where
  state : Agrees o.state o'.state
  actions : o.actions.map Action.common = o'.actions.map Action.common
  error : o.error = o'.error

variable {p : UDSCanProgrammer} {ecu : ECUContext} {r r' : Request}

theorem Matched.after {o : Outcome UDSCanProgrammer} {o' : Outcome ECUContext} (h : Matched o o')
    (actions : List Action) : Matched (o.after actions) (o'.after actions) where
  state := h.state
  actions := by
    rw [Outcome.after, Outcome.after, List.map_append, List.map_append, h.actions]
  error := h.error

theorem matched_reply {payload payload' : Bytes} (h : Agrees p ecu)
    (hcommon : commonPart payload = commonPart payload') :
    Matched (reply payload p) (reply payload' ecu) :=
  ⟨h, by simp [reply, Action.common, hcommon], rfl⟩

theorem matched_negative (h : Agrees p ecu) (serviceId code : UInt8) :
    Matched (negative serviceId code p) (negative serviceId code ecu) := matched_reply h rfl

/-- What the overlay leaves alone is the same on both sides. -/
theorem Agrees.shared (h : Agrees p ecu) {α : Type} (g : ProgrammingState → α)
    (hg : ∀ seed started b, g (ProgrammingState.shadow seed started b) = g b) :
    g (base ecu) = g (base p) := by
  obtain ⟨seed, started, hbase, -⟩ := h
  exact (congrArg g hbase).trans (hg _ _ _)

/-- An assignment that commutes with the overlay and does not touch the download. -/
theorem Agrees.assign (h : Agrees p ecu) {f : ProgrammingState → ProgrammingState}
    (hf : ∀ seed started b,
      f (ProgrammingState.shadow seed started b) = ProgrammingState.shadow seed started (f b))
    (hseed : (f p.base).pendingSeed = p.base.pendingSeed)
    (hstarted : (f p.base).installStarted = p.base.installStarted)
    (hpending : (f p.base).installPending = p.base.installPending)
    (hreceiver : (f p.base).receiver = p.base.receiver)
    (hexpected : (f p.base).expectedSize = p.base.expectedSize)
    (hreceived : (f p.base).receivedSize = p.base.receivedSize) :
    Agrees (update f p) (update f ecu) := by
  obtain ⟨seed, started, hbase, hs⟩ := h
  refine ⟨seed, started, (congrArg f hbase).trans (hf _ _ _), ?_, ?_, ?_, ?_, ?_, ?_⟩
  · exact hs.seed.trans (by rw [← hseed]; rfl)
  · exact hstarted.trans hs.idle
  · exact fun hp ↦ hs.started (hpending ▸ hp)
  · exact fun hd ↦ (congrArg _ hreceiver).trans ((hs.limit hd).trans (congrArg some hexpected.symm))
  · exact fun hd ↦ hreceived.trans ((hs.received hd).trans (by rw [← hreceiver]; rfl))
  · exact fun hd ↦ hreceived.trans_le ((hs.fits hd).trans_eq hexpected.symm)

/-! ## Sessions -/

theorem Agrees.touchSession (h : Agrees p ecu) (now : ℚ) :
    Agrees (update (.touchSession now) p) (update (.touchSession now) ecu) :=
  h.assign (fun _ _ _ ↦ rfl) rfl rfl rfl rfl rfl rfl

/-- Behind a reset nothing is left that could differ. -/
theorem Agrees.reset (h : Agrees p ecu) (session : UInt8) :
    Agrees (resetProgrammingState (update (.setSession session) p))
      (resetProgrammingState (update (.setSession session) ecu)) := by
  obtain ⟨seed, started, hbase, hs⟩ := h
  refine ⟨[], started, ?_, by simp [resetProgrammingState, UDSCanProgrammer.resetProgrammingState,
    ProgrammingState.reset], rfl, fun h ↦ absurd h Bool.false_ne_true,
    fun h ↦ absurd h Bool.false_ne_true, fun h ↦ absurd h Bool.false_ne_true,
    fun h ↦ absurd h Bool.false_ne_true⟩
  change (ecu.base.setSession session).reset = _
  rw [hbase]
  rfl

/-- The session is a programming session that has not run out. -/
def InSession (r : Request) (p : UDSCanProgrammer) : Prop :=
  p.base.sessionExpired r.expiryClock = false ∧ p.base.currentSession = defaultSessionProgramming

theorem Agrees.sessionExpired (h : Agrees p ecu) (now : ℚ) :
    (base ecu).sessionExpired now = (base p).sessionExpired now :=
  h.shared (ProgrammingState.sessionExpired now) fun _ _ _ ↦ rfl

theorem Agrees.currentSession (h : Agrees p ecu) :
    (base ecu).currentSession = (base p).currentSession :=
  h.shared ProgrammingState.currentSession fun _ _ _ ↦ rfl

theorem matched_requireProgrammingSession {serviceId : UInt8}
    {service : UDSCanProgrammer → Outcome UDSCanProgrammer}
    {service' : ECUContext → Outcome ECUContext} (h : Agrees p ecu)
    (hexpiry : r'.expiryClock = r.expiryClock) (htouch : r'.touchClock = r.touchClock)
    (hservice : InSession r p → Matched (service (update (.touchSession r.touchClock) p))
      (service' (update (.touchSession r.touchClock) ecu))) :
    Matched (requireProgrammingSession serviceId service r p)
      (requireProgrammingSession serviceId service' r' ecu) := by
  unfold requireProgrammingSession
  rcases expireSessionIfNeeded_cases r p with ⟨hunexpired, he⟩ | ⟨hexpired, he⟩
  · have he' : expireSessionIfNeeded r' ecu = ⟨ecu, [], none⟩ := by
      rw [expireSessionIfNeeded, hexpiry, h.sessionExpired, hunexpired]
      rfl
    simp only [he, he', h.currentSession]
    split
    · exact (matched_negative h _ _).after []
    · rename_i hprog
      rw [htouch]
      exact (hservice ⟨hunexpired, not_not.mp hprog⟩).after []
  · have he' : expireSessionIfNeeded r' ecu =
        ⟨resetProgrammingState (update (.setSession 0x00) ecu), [.expire], none⟩ := by
      rw [expireSessionIfNeeded, hexpiry, h.sessionExpired, hexpired]
      rfl
    simp only [he, he', currentSession_expired]
    rw [if_pos (by decide), if_pos (by decide)]
    exact (matched_negative (h.reset 0x00) _ _).after [.expire]

theorem matched_diagnosticSessionControl (h : Agrees p ecu) :
    Matched (diagnosticSessionControl r p) (diagnosticSessionControl r ecu) :=
  matched_reply ((h.reset _).touchSession _) rfl

theorem matched_testerPresent (h : Agrees p ecu) :
    Matched (testerPresent r p) (testerPresent r ecu) := by
  unfold testerPresent
  rcases expireSessionIfNeeded_cases r p with ⟨hunexpired, he⟩ | ⟨hexpired, he⟩
  · have he' : expireSessionIfNeeded r ecu = ⟨ecu, [], none⟩ := by
      rw [expireSessionIfNeeded, h.sessionExpired, hunexpired]
      rfl
    simp only [he, he', h.currentSession]
    split
    · exact (matched_reply (h.touchSession _) rfl).after []
    · exact (matched_reply h rfl).after []
  · have he' : expireSessionIfNeeded r ecu =
        ⟨resetProgrammingState (update (.setSession 0x00) ecu), [.expire], none⟩ := by
      rw [expireSessionIfNeeded, h.sessionExpired, hexpired]
      rfl
    simp only [he, he', currentSession_expired]
    rw [if_neg (by decide), if_neg (by decide)]
    exact (matched_reply (h.reset 0x00) rfl).after [.expire]

theorem matched_readDataByIdentifier (h : Agrees p ecu) :
    Matched (readDataByIdentifier r p) (readDataByIdentifier r ecu) := by
  unfold readDataByIdentifier
  split
  · exact matched_negative h _ _
  · split
    · exact matched_negative h _ _
    · cases r.currentVersion with
      | error e => exact ⟨h, rfl, rfl⟩
      | ok version => exact matched_reply h rfl

/-! ## SecurityAccess -/

/-- The last two bytes of a seed come from the counter alone. -/
theorem drop_generateSeed (i j : ℕ) (b : ProgrammingState) :
    (generateSeed i b).drop 2 = (generateSeed j b).drop 2 := by
  have hlow : ∀ i, (((i &&& 0xFFFF) <<< 16) ||| nextSeedCounter b) % 65536 =
      nextSeedCounter b % 65536 := by
    intro i
    rw [show (65536 : ℕ) = 2 ^ 16 from rfl, Nat.or_mod_two_pow, Nat.shiftLeft_eq,
      Nat.mul_mod_left, Nat.zero_or]
  have hbytes : ∀ m n : ℕ, m % 65536 = n % 65536 →
      (intToBytes 4 m).drop 2 = (intToBytes 4 n).drop 2 := by
    intro m n h
    have h1 : UInt8.ofNat (m / 256) = UInt8.ofNat (n / 256) := by
      apply UInt8.toNat_inj.mp
      rw [UInt8.toNat_ofNat', UInt8.toNat_ofNat']
      omega
    have h0 : UInt8.ofNat m = UInt8.ofNat n := by
      apply UInt8.toNat_inj.mp
      rw [UInt8.toNat_ofNat', UInt8.toNat_ofNat']
      omega
    change [UInt8.ofNat (m / 256), UInt8.ofNat m] = [UInt8.ofNat (n / 256), UInt8.ofNat n]
    rw [h0, h1]
  exact hbytes _ _ ((hlow i).trans (hlow j).symm)

/-- Whether a key can be derived depends on the environment only. -/
theorem deriveSecurityKey_error {env : SecurityEnvironment} {seed : Bytes} {e : PyError}
    (h : deriveSecurityKey env seed = .error e) (other : Bytes) :
    deriveSecurityKey env other = .error e := by
  unfold deriveSecurityKey at h ⊢
  split at h
  · rename_i hmode
    rw [if_pos hmode]
    unfold staticSecurityKey at h ⊢
    split at h
    · rename_i hraw
      rw [if_pos hraw]
      exact h
    · rename_i hraw
      rw [if_neg hraw]
      cases hkey : fromHex (strip env.staticKeyHex.toList) with
      | error e =>
          rw [hkey] at h
          exact h
      | ok key =>
          rw [hkey] at h
          dsimp only at h ⊢
          split at h
          · rename_i hempty
            rw [if_pos hempty]
            exact h
          · cases h
  · cases h

/-- The request carries the key for the pending seed. -/
def KeyRight {σ : Type} [ProgrammingServer σ] (r : Request) (s : σ) : Prop :=
  deriveSecurityKey r.security (base s).pendingSeed = .ok (r.payload.drop 2)

instance {σ : Type} [ProgrammingServer σ] (r : Request) (s : σ) : Decidable (KeyRight r s) :=
  inferInstanceAs (Decidable (_ = _))

theorem matched_requestSeed (h : Agrees p ecu) : Matched (requestSeed r p) (requestSeed r ecu) := by
  have hlocked := h.shared ProgrammingState.securityLockedUntil fun _ _ _ ↦ rfl
  unfold requestSeed
  rw [hlocked]
  split
  · exact matched_negative h _ _
  · obtain ⟨seed, started, hbase, hs⟩ := h
    have hne : ∀ i b, generateSeed i b ≠ [] := by
      intro i b h
      simpa [generateSeed] using congrArg List.length h
    refine matched_reply
      ⟨generateSeed ecu.logicalAddress (p.base.shadow seed started), started, ?_, ?_⟩ ?_
    · change ecu.base.issueSeed (generateSeed ecu.logicalAddress ecu.base) = _
      rw [hbase]
      rfl
    · exact ⟨iff_of_false (hne _ _) (hne _ _), hs.2, hs.3, hs.4, hs.5, hs.6⟩
    · have hcounter : (generateSeed ecu.logicalAddress ecu.base).drop 2 =
          (generateSeed p.ecuId p.base).drop 2 := by
        rw [hbase]
        exact drop_generateSeed ecu.logicalAddress p.ecuId p.base
      change [_, _] ++ (generateSeed p.ecuId p.base).drop 2 =
        [_, _] ++ (generateSeed ecu.logicalAddress ecu.base).drop 2
      rw [hcounter]

theorem matched_rejectKey (h : Agrees p ecu) (hclock : r'.securityClock = r.securityClock) :
    Matched (rejectKey r p) (rejectKey r' ecu) := by
  obtain ⟨seed, started, hbase, hs⟩ := h
  have hcounted : Agrees (update ProgrammingState.countFailure p)
      (update ProgrammingState.countFailure ecu) := by
    refine ⟨[], started, ?_, iff_of_true rfl rfl, hs.2, hs.3, hs.4, hs.5, hs.6⟩
    change ecu.base.countFailure = _
    rw [hbase]
    rfl
  have hfailures := hcounted.shared ProgrammingState.securityFailures fun _ _ _ ↦ rfl
  unfold rejectKey
  dsimp only
  rw [hfailures, hclock]
  split
  · exact matched_negative (hcounted.assign (fun _ _ _ ↦ rfl) rfl rfl rfl rfl rfl rfl) _ _
  · exact matched_negative hcounted _ _

theorem matched_sendKey (h : Agrees p ecu) (hclock : r'.securityClock = r.securityClock)
    (hsecurity : r'.security = r.security)
    (hkeys : p.base.pendingSeed ≠ [] → (KeyRight r p ↔ KeyRight r' ecu)) :
    Matched (sendKey r p) (sendKey r' ecu) := by
  have hrejected := matched_rejectKey h hclock
  have hseed : (base ecu).pendingSeed = [] ↔ (base p).pendingSeed = [] := by
    obtain ⟨seed, started, hbase, hs⟩ := h
    change ecu.base.pendingSeed = [] ↔ _
    rw [hbase]
    exact hs.seed
  unfold sendKey
  by_cases hpending : (base p).pendingSeed = []
  · rw [hpending, hseed.mpr hpending]
    exact matched_negative h _ _
  · have hnotEmpty : (base p).pendingSeed.isEmpty = false := by simpa using hpending
    have hnotEmpty' : (base ecu).pendingSeed.isEmpty = false := by simpa [hseed] using hpending
    rw [hnotEmpty, hnotEmpty', if_neg Bool.false_ne_true, if_neg Bool.false_ne_true, hsecurity]
    have hkeys := hkeys hpending
    unfold KeyRight at hkeys
    rw [hsecurity] at hkeys
    cases hderived : deriveSecurityKey r.security (base p).pendingSeed with
    | error e =>
        rw [deriveSecurityKey_error hderived]
        exact ⟨h, rfl, rfl⟩
    | ok key =>
        cases hderived' : deriveSecurityKey r.security (base ecu).pendingSeed with
        | error e =>
            rw [deriveSecurityKey_error hderived'] at hderived
            cases hderived
        | ok key' =>
            rw [hderived, hderived', Except.ok.injEq, Except.ok.injEq] at hkeys
            dsimp only
            by_cases hright : key = r.payload.drop 2
            · rw [if_neg (not_not.mpr hright.symm), if_neg (not_not.mpr (hkeys.mp hright).symm)]
              obtain ⟨seed, started, hbase, hs⟩ := h
              refine matched_reply ⟨[], started, ?_, iff_of_true rfl rfl, hs.2, hs.3, hs.4, hs.5,
                hs.6⟩ rfl
              change ecu.base.unlock = _
              rw [hbase]
              rfl
            · rw [if_pos (Ne.symm hright), if_pos (Ne.symm (mt hkeys.mpr hright))]
              exact hrejected

/-- The request carries a key. -/
def SendsKey (payload : Bytes) : Prop :=
  payload.take 2 = [sidSecurityAccess, securityAccessSendKey]

instance (payload : Bytes) : Decidable (SendsKey payload) := inferInstanceAs (Decidable (_ = _))

theorem SendsKey.length {payload : Bytes} (h : SendsKey payload) : ¬ payload.length < 2 := by
  have hlength := congrArg List.length h
  rw [List.length_take, List.length_cons, List.length_cons, List.length_nil] at hlength
  omega

theorem SendsKey.subfunction {payload : Bytes} (h : SendsKey payload) :
    payload.getD 1 0 = securityAccessSendKey := by
  match payload, h with
  | _ :: _ :: _, h => exact (List.cons.inj (List.cons.inj h).2).1

theorem sendsKey_of_head {payload : Bytes} (hhead : payload.head? = some sidSecurityAccess)
    (hlength : ¬ payload.length < 2) (hsub : payload.getD 1 0 = securityAccessSendKey) :
    SendsKey payload := by
  obtain ⟨rest, rfl⟩ := List.head?_eq_some_iff.mp hhead
  cases rest with
  | nil => exact absurd (by decide) hlength
  | cons subfunction rest =>
      change [sidSecurityAccess, subfunction] = _
      rw [show subfunction = securityAccessSendKey from hsub]

theorem matched_securityAccess (h : Agrees p ecu) (hhead : r.payload.head? = some sidSecurityAccess)
    (hsame : r' = { r with payload := r'.payload })
    (hpayload : r'.payload = r.payload ∨ SendsKey r.payload ∧ SendsKey r'.payload)
    (hkeys : InSession r p → p.base.pendingSeed ≠ [] → SendsKey r.payload →
      (KeyRight r p ↔ KeyRight r' ecu)) :
    Matched (securityAccess r p) (securityAccess r' ecu) := by
  have hexpiry : r'.expiryClock = r.expiryClock := by rw [hsame]
  have htouch : r'.touchClock = r.touchClock := by rw [hsame]
  have hclock : r'.securityClock = r.securityClock := by rw [hsame]
  have hsecurity : r'.security = r.security := by rw [hsame]
  apply matched_requireProgrammingSession h hexpiry htouch
  intro hsession
  have hkeys := hkeys hsession
  have h := h.touchSession r.touchClock
  rcases hpayload with heq | ⟨hkey, hkey'⟩
  · rw [heq]
    obtain rfl : r' = r := by rw [hsame, heq]
    split
    · exact matched_negative h _ _
    · rename_i hlength
      split
      · exact matched_requestSeed h
      · split
        · rename_i hsub
          exact matched_sendKey h rfl rfl fun hseed ↦
            hkeys hseed (sendsKey_of_head hhead hlength hsub)
        · exact matched_negative h _ _
  · rw [if_neg hkey.length, if_neg hkey'.length, hkey.subfunction, hkey'.subfunction,
      if_neg (by decide), if_pos rfl, if_neg (by decide), if_pos rfl]
    exact matched_sendKey h hclock hsecurity fun hseed ↦ hkeys hseed hkey

/-! ## RoutineControl -/

theorem matched_eraseMemory (h : Agrees p ecu) (routineData : Bytes) :
    Agrees (p.eraseMemory routineData) (ecu.eraseMemory routineData) := by
  obtain ⟨seed, started, hbase, hs⟩ := h
  refine ⟨seed, false, ?_, hs.1, hs.2, fun _ ↦ rfl, fun _ ↦ rfl, fun _ ↦ rfl, fun _ ↦ Nat.zero_le _⟩
  change { ecu.base.erase routineData with installStarted := false } = _
  rw [hbase]
  rfl

theorem matched_startRoutine (h : Agrees p ecu) :
    Matched (startRoutine UDSCanProgrammer.eraseMemory r p)
      (startRoutine ECUContext.eraseMemory r ecu) := by
  have hpending := h.shared ProgrammingState.installPending fun _ _ _ ↦ rfl
  unfold startRoutine
  dsimp only
  rw [hpending]
  split
  · exact ⟨matched_eraseMemory h _, rfl, rfl⟩
  · split
    · split
      · exact matched_negative h _ _
      · exact ⟨h, rfl, rfl⟩
    · split
      · split
        · exact matched_negative h _ _
        · exact ⟨h.assign (fun _ _ _ ↦ rfl) rfl rfl rfl rfl rfl rfl, rfl, rfl⟩
      · exact matched_negative h _ _

theorem Agrees.securityUnlocked (h : Agrees p ecu) :
    (base ecu).securityUnlocked = (base p).securityUnlocked :=
  h.shared ProgrammingState.securityUnlocked fun _ _ _ ↦ rfl

theorem matched_routineControl (h : Agrees p ecu) :
    Matched (routineControl UDSCanProgrammer.eraseMemory r p)
      (routineControl ECUContext.eraseMemory r ecu) := by
  apply matched_requireProgrammingSession h rfl rfl
  intro _
  have h := h.touchSession r.touchClock
  rw [h.securityUnlocked]
  split
  · exact matched_negative h _ _
  · split
    · exact matched_negative h _ _
    · split
      · exact matched_negative h _ _
      · exact matched_startRoutine h

/-! ## Transfer -/

/-- The format that only the programmer asks for. -/
def DownloadFormat (payload : Bytes) : Prop :=
  11 ≤ payload.length ∧ payload.getD 1 0 = 0x00 ∧ payload.getD 2 0 = 0x44

theorem matched_requestDownload {blockLength : ℕ} (h : Agrees p ecu)
    (hformat : InSession r p → p.base.securityUnlocked → p.base.eraseCompleted →
      DownloadFormat r.payload) :
    Matched (UDSCanProgrammer.requestDownload r p) (ECUContext.requestDownload blockLength r ecu) := by
  apply matched_requireProgrammingSession h rfl rfl
  intro hsession
  have hformat := hformat hsession
  have hunlocked : ecu.base.securityUnlocked = p.base.securityUnlocked := h.securityUnlocked
  have herased : ecu.base.eraseCompleted = p.base.eraseCompleted :=
    h.shared ProgrammingState.eraseCompleted fun _ _ _ ↦ rfl
  have h := h.touchSession r.touchClock
  change Matched (if ¬ p.base.securityUnlocked ∨ ¬ p.base.eraseCompleted then _ else _)
    (if ¬ ecu.base.securityUnlocked ∨ ¬ ecu.base.eraseCompleted then _ else _)
  rw [hunlocked, herased]
  split
  · exact matched_negative h _ _
  · rename_i hguard
    obtain ⟨hunlocked, herased⟩ := not_or.mp hguard
    obtain ⟨hlength, hfirst, hsecond⟩ := hformat (not_not.mp hunlocked) (not_not.mp herased)
    rw [if_neg (not_lt.mpr hlength),
      if_neg (not_or.mpr ⟨not_not.mpr hfirst, not_not.mpr hsecond⟩)]
    obtain ⟨seed, started, hbase, hs⟩ := h
    refine matched_reply ⟨seed, false, ?_, hs.1, rfl, fun _ ↦ rfl, fun _ ↦ rfl, fun _ ↦ rfl,
      fun _ ↦ Nat.zero_le _⟩ rfl
    exact congrArg (ProgrammingState.beginDownload (intFromBytes (lastBytes r.payload 4))) hbase

theorem matched_receiveBlock (h : Agrees p ecu) (hrequested : p.downloadRequested) :
    Matched (receiveBlock r p) (receiveBlock r ecu) := by
  have hsequence := h.shared ProgrammingState.expectedTransferSequence fun _ _ _ ↦ rfl
  have hchunk := h.shared (ProgrammingState.chunk (r.payload.drop 2)) fun _ _ _ ↦ rfl
  have hsize := h.shared ProgrammingState.expectedSize fun _ _ _ ↦ rfl
  unfold receiveBlock
  dsimp only
  rw [hsequence, hchunk, hsize]
  split
  · exact matched_negative h _ _
  · split
    · exact matched_negative h _ _
    · obtain ⟨seed, started, hbase, hs⟩ := h
      have hlength : ((base p).chunk (r.payload.drop 2)).length ≤
          p.base.expectedSize - p.base.receivedSize := List.length_take_le _ _
      have hreceived := hs.received hrequested
      have hfits := hs.fits hrequested
      refine matched_reply ⟨seed, started, ?_, hs.1, hs.2, hs.3, hs.4, fun _ ↦ ?_, fun _ ↦ ?_⟩ rfl
      · change ecu.base.receive _ = _
        rw [hbase]
        rfl
      · change p.base.receivedSize + _ = (p.base.receiver.buffer ++ _).length
        rw [List.length_append, hreceived]
      · change p.base.receivedSize + _ ≤ p.base.expectedSize
        omega

theorem matched_transferData (h : Agrees p ecu)
    (hrequested : InSession r p → 2 ≤ r.payload.length → p.base.securityUnlocked →
      p.downloadRequested) :
    Matched (UDSCanProgrammer.transferData r p) (ECUContext.transferData r ecu) := by
  apply matched_requireProgrammingSession h rfl rfl
  intro hsession
  have hrequested := hrequested hsession
  have hunlocked : ecu.base.securityUnlocked = p.base.securityUnlocked := h.securityUnlocked
  have h := h.touchSession r.touchClock
  change Matched (if _ then _ else if ¬ p.base.securityUnlocked then _ else
      if ¬ p.downloadRequested then _ else _)
    (if _ then _ else if ¬ ecu.base.securityUnlocked then _ else _)
  rw [hunlocked]
  split
  · exact matched_negative h _ _
  · rename_i hlength
    split
    · exact matched_negative h _ _
    · rename_i hlocked
      have hrequested := hrequested (not_lt.mp hlength) (not_not.mp hlocked)
      rw [if_neg (not_not.mpr hrequested)]
      exact matched_receiveBlock h hrequested

theorem matched_saveAndVerify (h : Agrees p ecu) (hrequested : p.downloadRequested) :
    Matched (saveAndVerify UDSCanProgrammer.conclude r p) (saveAndVerify ECUContext.conclude r ecu) := by
  have hdata : (base ecu).receiver.firmwareData = (base p).receiver.firmwareData := by
    obtain ⟨seed, started, hbase, hs⟩ := h
    have hbuffer : p.base.receiver.buffer.length ≤ p.base.expectedSize :=
      (hs.received hrequested).ge.trans (hs.fits hrequested)
    calc (base ecu).receiver.firmwareData = p.base.receiver.buffer :=
          congrArg (fun b ↦ b.receiver.firmwareData) hbase
      _ = p.base.receiver.firmwareData := by
          rw [FirmwareReceiver.firmwareData, hs.limit hrequested]
          exact (List.take_of_length_le hbuffer).symm
  have hverify : ∀ original, (base ecu).receiver.verify original = (base p).receiver.verify original := by
    intro original
    rw [FirmwareReceiver.verify, FirmwareReceiver.verify, FirmwareReceiver.sha256,
      FirmwareReceiver.sha256, hdata]
  unfold saveAndVerify
  dsimp only
  cases r.original with
  | error e =>
      rw [hdata]
      exact ⟨h, rfl, rfl⟩
  | ok original =>
      dsimp only
      rw [hdata, hverify]
      refine ⟨?_, rfl, rfl⟩
      obtain ⟨seed, started, hbase, hs⟩ := h
      refine ⟨seed, false, ?_, hs.1, hs.2, fun _ ↦ rfl, fun hd ↦ ?_, fun hd ↦ ?_, fun hd ↦ ?_⟩
      · exact congrArg (fun b : ProgrammingState ↦
          { b with installPending := (base p).receiver.verify original, installStarted := false }) hbase
      · exact hs.limit (Bool.and_eq_true _ _ ▸ hd).1
      · exact hs.received (Bool.and_eq_true _ _ ▸ hd).1
      · exact hs.fits (Bool.and_eq_true _ _ ▸ hd).1

theorem matched_requestTransferExit (h : Agrees p ecu)
    (hrequested : InSession r p → p.base.securityUnlocked → p.downloadRequested) :
    Matched (UDSCanProgrammer.requestTransferExit r p) (ECUContext.requestTransferExit r ecu) := by
  apply matched_requireProgrammingSession h rfl rfl
  intro hsession
  have hrequested := hrequested hsession
  have hunlocked : ecu.base.securityUnlocked = p.base.securityUnlocked := h.securityUnlocked
  have hmismatch : ecu.base.lengthMismatch = p.base.lengthMismatch :=
    h.shared ProgrammingState.lengthMismatch fun _ _ _ ↦ rfl
  have h := h.touchSession r.touchClock
  change Matched (if ¬ p.base.securityUnlocked then _ else if ¬ p.downloadRequested then _ else
      if p.base.lengthMismatch then _ else _)
    (if ¬ ecu.base.securityUnlocked then _ else if ecu.base.lengthMismatch then _ else _)
  rw [hunlocked, hmismatch]
  split
  · exact matched_negative h _ _
  · rename_i hlocked
    have hrequested := hrequested (not_not.mp hlocked)
    rw [if_neg (not_not.mpr hrequested)]
    split
    · exact matched_negative h _ _
    · exact matched_saveAndVerify h hrequested

theorem installReady_shadow {b : ProgrammingState} {seed : Bytes} {started : Bool}
    (hidle : b.installStarted = false) (hstarted : b.installPending → started = false) :
    (b.shadow seed started).installReady = b.installReady := by
  cases hpending : b.installPending with
  | false => simp [ProgrammingState.installReady, ProgrammingState.shadow, hpending]
  | true =>
      simp [ProgrammingState.installReady, ProgrammingState.shadow, hpending, hidle,
        hstarted hpending]

theorem Agrees.installReady (h : Agrees p ecu) : (base ecu).installReady = (base p).installReady := by
  obtain ⟨seed, started, hbase, hs⟩ := h
  exact (congrArg ProgrammingState.installReady hbase).trans (installReady_shadow hs.idle hs.started)

theorem matched_resetEcu (h : Agrees p ecu) : Matched (resetEcu r p) (resetEcu r ecu) := by
  have hreset := h.reset 0x00
  unfold resetEcu
  dsimp only
  rw [h.installReady]
  split
  · obtain ⟨seed, started, hbase, -⟩ := h
    obtain ⟨_, _, -, hs⟩ := hreset
    refine ⟨⟨[], true, ?_, iff_of_true rfl rfl, hs.2, fun hp ↦ absurd hp Bool.false_ne_true, hs.4,
      hs.5, hs.6⟩, rfl, rfl⟩
    exact congrArg (fun b : ProgrammingState ↦ (b.startInstall.setSession 0x00).reset) hbase
  · exact ⟨hreset, rfl, rfl⟩

theorem matched_ecuReset (h : Agrees p ecu) : Matched (ecuReset r p) (ecuReset r ecu) :=
  matched_requireProgrammingSession h rfl rfl fun _ ↦ matched_resetEcu (h.touchSession r.touchClock)

/-! ## One request -/

def supportedServices : List UInt8 :=
  [sidDiagnosticSessionControl, sidTesterPresent, sidReadDataByIdentifier, sidSecurityAccess,
    sidRoutineControl, sidRequestDownload, sidTransferData, sidRequestTransferExit, sidEcuReset]

/-- One request to both servers at the same time.  A key may differ, as the seeds do. -/
structure SameRequest (p : UDSCanProgrammer) (ecu : ECUContext) (r r' : Request) : Prop where
  supported : ∃ serviceId ∈ supportedServices, r.payload.head? = some serviceId
  surroundings : r' = { r with payload := r'.payload }
  payload : r'.payload = r.payload ∨ SendsKey r.payload ∧ SendsKey r'.payload
  keys : InSession r p → p.base.pendingSeed ≠ [] → SendsKey r.payload →
    (KeyRight r p ↔ KeyRight r' ecu)

/-- The programmer would not refuse the request where the gateway does not ask. -/
structure NotRefused (p : UDSCanProgrammer) (r : Request) : Prop where
  diagnostics : r.diagnosticsEnabled
  programming : (∃ serviceId ∈ UDSCanProgrammer.programmingServices,
    r.payload.head? = some serviceId) → r.programmingEnabled
  format : r.payload.head? = some sidRequestDownload → InSession r p → p.base.securityUnlocked →
    p.base.eraseCompleted → DownloadFormat r.payload
  requested : r.payload.head? = some sidTransferData ∧ 2 ≤ r.payload.length ∨
      r.payload.head? = some sidRequestTransferExit →
    InSession r p → p.base.securityUnlocked → p.downloadRequested

theorem SendsKey.head {payload : Bytes} (h : SendsKey payload) :
    payload.head? = some sidSecurityAccess := by
  match payload, h with
  | _ :: _ :: _, h => exact congrArg some (List.cons.inj h).1

theorem SameRequest.head {serviceId : UInt8} (h : SameRequest p ecu r r')
    (hhead : r.payload.head? = some serviceId) : r'.payload.head? = some serviceId := by
  rcases h.payload with heq | ⟨hkey, hkey'⟩
  · rw [heq, hhead]
  · rw [hkey'.head, ← hkey.head, hhead]

theorem SameRequest.eq_of_head {serviceId : UInt8} (h : SameRequest p ecu r r')
    (hhead : r.payload.head? = some serviceId) (hne : serviceId ≠ sidSecurityAccess) : r' = r := by
  rcases h.payload with heq | ⟨hkey, -⟩
  · rw [h.surroundings, heq]
  · exact absurd (Option.some.inj (hhead.symm.trans hkey.head)) hne

theorem handleUds_of_notRefused {serviceId : UInt8} (hhead : r.payload.head? = some serviceId)
    (hr : NotRefused p r) : UDSCanProgrammer.handleUds r p = UDSCanProgrammer.serve serviceId r p :=
  UDSCanProgrammer.handleUds_of_enabled hhead hr.diagnostics fun hmem ↦
    hr.programming ⟨serviceId, hmem, hhead⟩

theorem matched_handle {blockLength : ℕ} (h : Agrees p ecu) (hsame : SameRequest p ecu r r')
    (hr : NotRefused p r) :
    Matched (UDSCanProgrammer.handleUds r p) (ECUContext.handle blockLength r' ecu) := by
  obtain ⟨serviceId, hsupported, hhead⟩ := hsame.supported
  have hcan := handleUds_of_notRefused hhead hr
  have hgateway := @ECUContext.handle_of_head blockLength r' ecu serviceId (hsame.head hhead)
  have hequal := hsame.eq_of_head hhead
  rw [hcan, hgateway]
  simp only [supportedServices, List.mem_cons, List.not_mem_nil, or_false] at hsupported
  rcases hsupported with rfl | rfl | rfl | rfl | rfl | rfl | rfl | rfl | rfl
  · rw [hequal (by decide)]
    exact matched_diagnosticSessionControl h
  · rw [hequal (by decide)]
    exact matched_testerPresent h
  · rw [hequal (by decide)]
    exact matched_readDataByIdentifier h
  · exact matched_securityAccess h hhead hsame.surroundings hsame.payload hsame.keys
  · rw [hequal (by decide)]
    exact matched_routineControl h
  · rw [hequal (by decide)]
    exact matched_requestDownload h (hr.format hhead)
  · rw [hequal (by decide)]
    exact matched_transferData h fun hsession hlength ↦ hr.requested (Or.inl ⟨hhead, hlength⟩) hsession
  · rw [hequal (by decide)]
    exact matched_requestTransferExit h (hr.requested (Or.inr hhead))
  · rw [hequal (by decide)]
    exact matched_ecuReset h

/-! ## Runs -/

/-- Both servers get their requests in step. -/
def jointStep (blockLength : ℕ) (s : UDSCanProgrammer × ECUContext) (i : Request × Request) :
    (UDSCanProgrammer × ECUContext) × (Exchange × Exchange) :=
  let can := step UDSCanProgrammer.handleUds s.1 i.1
  let gateway := step (ECUContext.handle blockLength) s.2 i.2
  ((can.1, gateway.1), (can.2, gateway.2))

/-- The same sequence of requests to both servers. -/
def SameRequests (s : UDSCanProgrammer × ECUContext) (_ : List (Exchange × Exchange))
    (i : Request × Request) : Prop :=
  SameRequest s.1 s.2 i.1 i.2

def NoneRefused (s : UDSCanProgrammer × ECUContext) (_ : List (Exchange × Exchange))
    (i : Request × Request) : Prop :=
  NotRefused s.1 i.1

theorem agrees_initial (ecuId : ℕ) (ecuKey file version key : String) (address : ℕ)
    (profile : Profile) :
    Agrees (UDSCanProgrammer.initial ecuId ecuKey file version)
      (ECUContext.initial key address profile) :=
  ⟨[], false, rfl, iff_of_true rfl rfl, rfl, fun _ ↦ rfl, fun h ↦ absurd h Bool.false_ne_true,
    fun h ↦ absurd h Bool.false_ne_true, fun h ↦ absurd h Bool.false_ne_true⟩

/-- Two fresh servers that get the same requests answer alike, in every run in which the programmer
refuses nothing by a check that the gateway lacks. -/
theorem servers_agree (blockLength ecuId : ℕ) (ecuKey file version key : String) (address : ℕ)
    (profile : Profile) (requests : List (Request × Request))
    (hsame : Admissible (jointStep blockLength) SameRequests
      (UDSCanProgrammer.initial ecuId ecuKey file version, ECUContext.initial key address profile)
      requests)
    (hrefused : Admissible (jointStep blockLength) NoneRefused
      (UDSCanProgrammer.initial ecuId ecuKey file version, ECUContext.initial key address profile)
      requests) :
    ∀ x ∈ (run (jointStep blockLength) (UDSCanProgrammer.initial ecuId ecuKey file version,
      ECUContext.initial key address profile) requests).2, x.1.Alike x.2 := by
  refine (run_invariant (A := fun s past i ↦ SameRequests s past i ∧ NoneRefused s past i)
    (I := fun s trace ↦ Agrees s.1 s.2 ∧ ∀ x ∈ trace, x.1.Alike x.2) ?_ ?_ requests ?_).2
  · exact ⟨agrees_initial ecuId ecuKey file version key address profile, by simp⟩
  · rintro ⟨p, ecu⟩ trace ⟨r, r'⟩ ⟨hagrees, halike⟩ ⟨hsame, hrefused⟩
    have hmatched := @matched_handle p ecu r r' blockLength hagrees hsame hrefused
    refine ⟨hmatched.state, fun x hx ↦ ?_⟩
    rcases List.mem_append.mp hx with hx | hx
    · exact halike x hx
    · rw [List.mem_singleton.mp hx]
      exact ⟨hmatched.actions, hmatched.error⟩
  · exact fun before i after heq ↦ ⟨hsame before i after heq, hrefused before i after heq⟩

/-! ## Two sessions of the BCM -/

def bcmServers : UDSCanProgrammer × ECUContext :=
  (.initial 0x202 "bcm" "bcm_v2.bin" "2.0.0", .initial "bcm" 0x1002 ECUContext.bcmProfile)

def toBoth (r : Request) : Request × Request := (r, r)

theorem sameRequest_toBoth {r : Request} (hsupported : ∃ serviceId ∈ supportedServices,
    r.payload.head? = some serviceId) (hkey : ¬ SendsKey r.payload) :
    SameRequest p ecu (toBoth r).1 (toBoth r).2 :=
  ⟨hsupported, rfl, Or.inl rfl, fun _ _ h ↦ absurd h hkey⟩

def openSession : Request := { payload := [0x10, 0x02], touchClock := 1 }

def askSeed : Request :=
  { payload := [0x27, 0x01], expiryClock := 2, touchClock := 2, securityClock := 2 }

def sendKeyOf (key : Bytes) : Request :=
  { payload := 0x27 :: 0x02 :: key, expiryClock := 3, touchClock := 3 }

def eraseTwoBytes : Request :=
  { payload := [0x31, 0x01, 0xFF, 0x00, 0, 0, 0, 2], expiryClock := 4, touchClock := 4 }

def firstBlock : Request := { payload := [0x36, 0x01, 0xAB, 0xCD], expiryClock := 5, touchClock := 5 }

/-- Each server gets the key for its own seed. -/
def unlockBoth : List (Request × Request) :=
  [toBoth openSession, toBoth askSeed,
    (sendKeyOf [0xA7, 0x58, 0x3C, 0xC2], sendKeyOf [0xB5, 0x58, 0x3C, 0xC2])]

theorem sameRequests_unlockBoth :
    Admissible (jointStep 8192) SameRequests bcmServers unlockBoth := by
  have hempty : Admissible (jointStep 8192) SameRequests bcmServers [] := by
    intro before i after heq
    simp at heq
  have hsession := hempty.concat (i := toBoth openSession)
    (sameRequest_toBoth ⟨0x10, by decide, rfl⟩ (by decide))
  have hseed := hsession.concat (i := toBoth askSeed)
    (sameRequest_toBoth ⟨0x27, by decide, rfl⟩ (by decide))
  exact hseed.concat ⟨⟨0x27, by decide, rfl⟩, rfl, Or.inr ⟨by decide, by decide⟩,
    fun _ _ _ ↦ iff_of_true (by decide +kernel) (by decide +kernel)⟩

theorem notRefused_toBoth {r : Request} (henabled : r.diagnosticsEnabled ∧ r.programmingEnabled)
    (hformat : r.payload.head? = some sidRequestDownload → DownloadFormat r.payload)
    (hrequested : r.payload.head? ∈ [some sidTransferData, some sidRequestTransferExit] →
      p.downloadRequested) : NotRefused p (toBoth r).1 where
  diagnostics := henabled.1
  programming := fun _ ↦ henabled.2
  format := fun hhead _ _ _ ↦ hformat hhead
  requested := by
    rintro (⟨hhead, -⟩ | hhead) _ _
    · exact hrequested (by simp [show r.payload.head? = some sidTransferData from hhead])
    · exact hrequested (by simp [show r.payload.head? = some sidRequestTransferExit from hhead])

theorem noneRefused_unlockBoth :
    Admissible (jointStep 8192) NoneRefused bcmServers unlockBoth := by
  intro before i after heq
  have hi : i ∈ unlockBoth := by simp [heq]
  simp only [unlockBoth, List.mem_cons, List.not_mem_nil, or_false] at hi
  rcases hi with rfl | rfl | rfl <;>
    exact ⟨rfl, fun _ ↦ rfl, fun h ↦ absurd h (by decide), fun h ↦ absurd h (by decide)⟩

def requestTwoBytes : Request :=
  { payload := [0x34, 0x00, 0x44, 8, 0, 0, 0, 0, 0, 0, 2], expiryClock := 5, touchClock := 5 }

def exitTwoBytes : Request :=
  { payload := [0x37], expiryClock := 7, touchClock := 7, original := .ok [0xAB, 0xCD] }

def activateTwoBytes : Request :=
  { payload := [0x31, 0x01, 0xFF, 0x02], expiryClock := 8, touchClock := 8 }

def resetBehind : Request := { payload := [0x11, 0x01], expiryClock := 9, touchClock := 9 }

/-- The whole session, with a block in two bytes and a reset that starts the install. -/
def flashBoth : List Request :=
  [eraseTwoBytes, requestTwoBytes, firstBlock, exitTwoBytes, activateTwoBytes, resetBehind]

/-- What both servers get up to the request at `n`. -/
def flashBothUpTo (n : ℕ) : List (Request × Request) := unlockBoth ++ (flashBoth.take n).map toBoth

theorem flashBothUpTo_succ {n : ℕ} (hn : n < flashBoth.length) :
    flashBothUpTo (n + 1) = flashBothUpTo n ++ [toBoth (flashBoth.get ⟨n, hn⟩)] := by
  rw [flashBothUpTo, flashBothUpTo, List.append_assoc, List.take_succ_eq_append_getElem hn,
    List.map_append]
  rfl

/-- The requests whose checks only the programmer has come where these pass. -/
theorem checked_flashBoth : ∀ n : Fin 6,
    let r := flashBoth.get n
    (r.payload.head? = some sidRequestDownload → 11 ≤ r.payload.length ∧
      r.payload.getD 1 0 = 0x00 ∧ r.payload.getD 2 0 = 0x44) ∧
    (r.payload.head? ∈ [some sidTransferData, some sidRequestTransferExit] →
      (run (jointStep 8192) bcmServers (flashBothUpTo n)).1.1.downloadRequested = true) := by
  decide +kernel

theorem admissible_flashBoth (n : ℕ) (hn : n ≤ 6) :
    Admissible (jointStep 8192) SameRequests bcmServers (flashBothUpTo n) ∧
      Admissible (jointStep 8192) NoneRefused bcmServers (flashBothUpTo n) := by
  induction n with
  | zero => exact ⟨sameRequests_unlockBoth, noneRefused_unlockBoth⟩
  | succ n ih =>
      have hlt : n < flashBoth.length := hn
      obtain ⟨hsame, hrefused⟩ := ih (Nat.le_of_succ_le hn)
      have hchecked := checked_flashBoth ⟨n, hlt⟩
      have hmem := List.get_mem flashBoth ⟨n, hlt⟩
      rw [flashBothUpTo_succ hlt]
      refine ⟨hsame.concat (sameRequest_toBoth ?_ ?_),
        hrefused.concat (notRefused_toBoth ?_ hchecked.1 hchecked.2)⟩
      · exact (by decide : ∀ r ∈ flashBoth, ∃ serviceId ∈ supportedServices,
          r.payload.head? = some serviceId) _ hmem
      · exact (by decide : ∀ r ∈ flashBoth, ¬ SendsKey r.payload) _ hmem
      · exact (by decide : ∀ r ∈ flashBoth, r.diagnosticsEnabled ∧ r.programmingEnabled) _ hmem

/-- The nine exchanges of a session that ends with an install. -/
theorem servers_agree_bcm :
    (run (jointStep 8192) bcmServers (flashBothUpTo 6)).2.length = 9 ∧
    (∃ x ∈ (run (jointStep 8192) bcmServers (flashBothUpTo 6)).2, x.1.Launched ∧ x.2.Launched) ∧
      ∀ x ∈ (run (jointStep 8192) bcmServers (flashBothUpTo 6)).2, x.1.Alike x.2 :=
  ⟨by decide +kernel, by decide +kernel,
    servers_agree 8192 0x202 "bcm" "bcm_v2.bin" "2.0.0" "bcm" 0x1002 ECUContext.bcmProfile
      (flashBothUpTo 6) (admissible_flashBoth 6 le_rfl).1 (admissible_flashBoth 6 le_rfl).2⟩

/-- A block right behind the erasure, without a requested download. -/
def unrequestedBlock : List (Request × Request) :=
  unlockBoth ++ [toBoth eraseTwoBytes, toBoth firstBlock]

theorem unrequestedBlock_differs :
    Admissible (jointStep 8192) SameRequests bcmServers unrequestedBlock ∧
      ¬ ∀ x ∈ (run (jointStep 8192) bcmServers unrequestedBlock).2, x.1.Alike x.2 := by
  refine ⟨?_, by decide +kernel⟩
  have herase := sameRequests_unlockBoth.concat (i := toBoth eraseTwoBytes)
    (sameRequest_toBoth ⟨0x31, by decide, rfl⟩ (by decide))
  exact herase.concat (i := toBoth firstBlock)
    (sameRequest_toBoth ⟨0x36, by decide, rfl⟩ (by decide))

end VehicleOta.Uds
