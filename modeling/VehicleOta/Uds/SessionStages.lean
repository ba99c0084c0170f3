import VehicleOta.Uds.Download
import VehicleOta.Uds.SessionServer
import VehicleOta.Uds.TesterSession

/-!
# The stages of a flashing session

A request of the tester from one stage to the next: a positive response tells where the server
stands, whatever its state was, and where there is none the surroundings were at fault.
-/

namespace VehicleOta.Uds

open ProgrammingServer TraceLogic BlockLogic

/-! ## Waiting for the response -/

section Await

variable {channel : Channel} {requestSid : UInt8}

/-- What a server sends behind an accepted request: the positive response, and at most one
response pending in front of it. -/
structure PositiveAnswer (requestSid : UInt8) (parameters : Bytes) (responses : List Bytes) :
    Prop where
  shape : responses = [positiveResponseSid requestSid :: parameters] ∨
    responses = [[sidNegativeResponse, requestSid, nrcResponsePending],
      positiveResponseSid requestSid :: parameters]

theorem takes_positive (channel : Channel) (requestSid : UInt8) (parameters : Bytes) :
    channel.takes requestSid (positiveResponseSid requestSid :: parameters) = true := by
  cases channel with
  | doip => rfl
  | isoTp => simp [Channel.takes, Can.isResponseForRequest]

theorem takes_pending (channel : Channel) (requestSid : UInt8) :
    channel.takes requestSid [sidNegativeResponse, requestSid, nrcResponsePending] = true := by
  cases channel with
  | doip => rfl
  | isoTp => simp [Channel.takes, Can.isResponseForRequest, isNegativeResponse]

theorem PositiveAnswer.awaitResponse {parameters : Bytes} {responses : List Bytes}
    (h : PositiveAnswer requestSid parameters responses)
    (hpositive : positiveResponseSid requestSid ≠ sidNegativeResponse) :
    awaitResponse channel requestSid responses =
      (.ok (positiveResponseSid requestSid :: parameters), []) := by
  have hfinal : Uds.awaitResponse channel requestSid [positiveResponseSid requestSid :: parameters] =
      (.ok (positiveResponseSid requestSid :: parameters), []) := by
    rw [Uds.awaitResponse, if_pos (takes_positive channel requestSid parameters),
      checkResponse_positive hpositive]
  rcases h.shape with rfl | rfl
  · exact hfinal
  · rw [Uds.awaitResponse, if_pos (takes_pending channel requestSid), checkResponse_pending]
    exact hfinal

end Await

/-! ## The services of a session -/

section Services

variable {σ : Type} [ProgrammingServer σ] {r : Request} {s : σ}

end Services

/-! ## One request -/

namespace Bench

variable {σ : Type} {x : Bench σ}

/-- A request number `n` with this payload. -/
def numbered (x : Bench σ) (n : ℕ) (payload : Bytes) : Request :=
  { x.surroundings n with payload := payload }

/-- The tester has read everything that the request brought. -/
def settled (x : Bench σ) (payload : Bytes) (later : List Bytes) (t : Tester σ) : Tester σ :=
  { x.after payload t with inbox := later }

/-- Nothing around the tester stands in the way of the session that starts with request number
`first` on a server in state `s`. -/
structure Favourable [ProgrammingServer σ] (x : Bench σ) (first : ℕ) (s : σ) (firmware : Bytes) :
    Prop where
  length : firmware.length < 2 ^ 32
  online : ∀ n, first ≤ n → x.channel = .isoTp → x.online n = .ok ()
  enabled : ∀ n, first ≤ n →
    (x.surroundings n).diagnosticsEnabled ∧ (x.surroundings n).programmingEnabled
  clock : ∀ n, first ≤ n → (x.surroundings (n + 1)).expiryClock - (x.surroundings n).touchClock ≤
    ProgrammingState.sessionTimeoutSeconds
  unlocked : (base s).securityLockedUntil ≤ (x.surroundings (first + 2)).securityClock
  key : ∀ seed, ∃ key, deriveSecurityKey x.security seed = .ok key ∧
    ∀ n, first ≤ n → deriveSecurityKey (x.surroundings n).security seed = .ok key
  original : ∀ n, first ≤ n → ∃ original, (x.surroundings n).original = .ok original ∧
    Hash.sha256 original = Hash.sha256 firmware

/-- The tester has read every response, no install was started, and these files were saved, each
by a positive `RequestTransferExit`. -/
structure UnderWay (calls : Action → σ → Prop) (past : List Exchange) (call : Action)
    (saved : List (String × Bytes)) (t : Tester σ) : Prop where
  inbox : t.inbox = []
  block : 0 < t.maxTransferPayload
  log : ∃ xs, t.exchanges = past ++ xs ∧ (∀ y ∈ xs, ¬ y.Launched) ∧
    xs.flatMap Exchange.saves = saved ∧
    ∀ file data, (file, data) ∈ saved → ∃ y ∈ xs, y.TransferExited file data
  calls : calls call t.server

/-- The session broke off before an install was started. -/
def Failed [ProgrammingServer σ] (x : Bench σ) (past : List Exchange) (s : σ) (firmware : Bytes)
    (t : Tester σ) : Prop :=
  ¬ x.Favourable past.length s firmware ∧
    ∃ xs, t.exchanges = past ++ xs ∧ ∀ y ∈ xs, ¬ y.Launched

/-- The session is open in front of request number `n`. -/
structure Opened [ProgrammingServer σ] (x : Bench σ) (past : List Exchange) (n : ℕ) (s : σ) :
    Prop where
  later : past.length < n
  session : (base s).currentSession = defaultSessionProgramming
  clock : (base s).sessionStartedAt = (x.surroundings (n - 1)).touchClock

section Session

variable [ProgrammingServer σ] {serving : σ → Prop} {erase : Bytes → σ → σ}
  {calls : Action → σ → Prop} {past : List Exchange} {s₀ : σ} {firmware : Bytes} {call : Action}
  {saved : List (String × Bytes)} {t : Tester σ}

omit [ProgrammingServer σ] in
theorem UnderWay.length_le (h : UnderWay calls past call saved t) :
    past.length ≤ t.exchanges.length := by
  obtain ⟨xs, hxs, -⟩ := h.log
  rw [hxs, List.length_append]
  exact Nat.le_add_right _ _

theorem Opened.unexpired {n : ℕ} {s : σ} (h : Opened x past n s)
    (hfavourable : x.Favourable past.length s₀ firmware) (payload : Bytes) :
    (base s).sessionExpired (x.numbered n payload).expiryClock = false := by
  obtain ⟨k, rfl⟩ := Nat.exists_eq_add_of_le' (Nat.one_le_of_lt h.later)
  refine decide_eq_false fun hexpired ↦ hexpired.2.2 ?_
  rw [h.clock]
  exact hfavourable.clock k (Nat.le_of_lt_succ h.later)

theorem Opened.live {n : ℕ} {s : σ} (h : Opened x past n s)
    (hfavourable : x.Favourable past.length s₀ firmware) (payload : Bytes) :
    Live (x.numbered n payload) s where
  diagnostics := (hfavourable.enabled n h.later.le).1
  programming := (hfavourable.enabled n h.later.le).2
  unexpired := h.unexpired hfavourable payload

theorem Favourable.shared (hserves : ServesSession x.handle serving erase calls)
    (hfavourable : x.Favourable past.length s₀ firmware) {n : ℕ} (hn : past.length ≤ n)
    {requestSid : UInt8} {service : Request → σ → Outcome σ}
    (hshared : Shared erase requestSid service) {payload : Bytes}
    (hhead : payload.head? = some requestSid) (s : σ) :
    x.handle (x.numbered n payload) s = service (x.numbered n payload) s :=
  hserves.shared_of_enabled hshared hhead (hfavourable.enabled n hn).1 (hfavourable.enabled n hn).2

/-! ## Requests that only respond -/

theorem UnderWay.settled (hserves : ServesSession x.handle serving erase calls)
    (h : UnderWay calls past call saved t) {payload : Bytes}
    (hplain : (x.nextOutcome payload t).Plain) :
    UnderWay calls past call saved (x.settled payload [] t) where
  inbox := rfl
  block := h.block
  log := by
    obtain ⟨xs, hxs, hlaunched, hsaved, hverified⟩ := h.log
    refine ⟨xs ++ [exchange (x.nextRequest payload t) (x.nextOutcome payload t)], ?_, ?_, ?_, ?_⟩
    · change t.exchanges ++ [_] = _
      rw [hxs, List.append_assoc]
    · intro y hy
      rcases List.mem_append.mp hy with hold | hnew
      · exact hlaunched y hold
      · rw [List.mem_singleton.mp hnew]
        intro hlaunch
        exact absurd (installs_of_launched hlaunch) (by rw [hplain.installs]; exact Bool.false_ne_true)
    · have hnone := @Outcome.Plain.saves _ (x.nextRequest payload t) _ hplain
      rw [List.flatMap_append, hsaved, List.flatMap_singleton, hnone, List.append_nil]
    · intro file data hmem
      obtain ⟨y, hy, hexited⟩ := hverified file data hmem
      exact ⟨y, List.mem_append_left _ hy, hexited⟩
  calls := hserves.calls_handle _ _ _ h.calls

theorem UnderWay.failed (h : UnderWay calls past call saved t)
    (hunfavourable : ¬ x.Favourable past.length s₀ firmware) : Failed x past s₀ firmware t := by
  obtain ⟨xs, hxs, hold, -⟩ := h.log
  exact ⟨hunfavourable, xs, hxs, hold⟩

end Session

end Bench

end VehicleOta.Uds
