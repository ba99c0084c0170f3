import VehicleOta.Uds.CanProgrammer
import VehicleOta.Uds.DoipServer
import VehicleOta.Uds.FlashManager
import VehicleOta.Uds.Transfer
/-!
# A server as the tester of a download sees it

What the services of a download do in an unlocked programming session that does not expire.
`ServesDownload` states it once for the CAN programmer and for the flash proxy of the gateway.
-/

namespace VehicleOta.Uds

open ProgrammingServer

section Record

/-- The server holds `data` of a download of `size` bytes and expects block number `count`. -/
structure ProgrammingState.Holds (b : ProgrammingState) (size : ℕ) (data : Bytes) (count : ℕ) :
    Prop where
  buffer : b.receiver.buffer = data
  limit : ∀ limit, b.receiver.expectedSize = some limit → limit = size
  expectedSize : b.expectedSize = size
  receivedSize : b.receivedSize = data.length
  sequence : b.expectedTransferSequence = (count + 1) % 256

variable {b : ProgrammingState} {size count : ℕ} {data block : Bytes}

/-- A block that fits is taken whole. -/
theorem ProgrammingState.Holds.chunk (h : b.Holds size data count)
    (hfits : data.length + block.length ≤ size) : b.chunk block = block := by
  rw [ProgrammingState.chunk, h.expectedSize, h.receivedSize]
  exact List.take_of_length_le (by omega)

theorem ProgrammingState.Holds.receive (h : b.Holds size data count) (block : Bytes) :
    (b.receive block).Holds size (data ++ block) (count + 1) where
  buffer := by rw [ProgrammingState.receive, h.buffer]
  limit := h.limit
  expectedSize := h.expectedSize
  receivedSize := by rw [ProgrammingState.receive, h.receivedSize, List.length_append]
  sequence := by
    rw [ProgrammingState.receive, h.sequence]
    dsimp only
    rw [show ((count + 1) % 256 + 1) &&& 0xFF = ((count + 1) % 256 + 1) % 256 from
      Nat.and_two_pow_sub_one_eq_mod _ 8]
    omega

/-- The expected number only counts modulo the values of a byte. -/
theorem ProgrammingState.Holds.of_mod_eq {other : ℕ} (h : b.Holds size data count)
    (heq : count % 256 = other % 256) : b.Holds size data other :=
  { h with sequence := by rw [h.sequence]; omega }

theorem ProgrammingState.Holds.touchSession (h : b.Holds size data count) (now : ℚ) :
    (b.touchSession now).Holds size data count := ⟨h.1, h.2, h.3, h.4, h.5⟩

/-- What is held of a complete download is the data. -/
theorem ProgrammingState.Holds.firmwareData (h : b.Holds size data count)
    (hle : data.length ≤ size) : b.receiver.firmwareData = data := by
  unfold FirmwareReceiver.firmwareData
  cases hlimit : b.receiver.expectedSize with
  | none => exact h.buffer
  | some limit =>
      dsimp only
      rw [h.limit limit hlimit, h.buffer, List.take_of_length_le hle]

theorem ProgrammingState.Holds.lengthMismatch_iff (h : b.Holds size data count) :
    b.lengthMismatch ↔ size ≠ 0 ∧ data.length ≠ size := by
  rw [ProgrammingState.lengthMismatch, h.expectedSize, h.receivedSize]
  simp

end Record

section Server

variable {σ : Type} [ProgrammingServer σ]

/-- An unlocked programming session. -/
structure Ready (s : σ) : Prop where
  session : (base s).currentSession = defaultSessionProgramming
  unlocked : (base s).securityUnlocked

/-- The ECU serves diagnostics and the session has not run out. -/
structure Live (r : Request) (s : σ) : Prop where
  diagnostics : r.diagnosticsEnabled
  programming : r.programmingEnabled
  unexpired : (base s).sessionExpired r.expiryClock = false

/-- Where the session stands behind `_require_programming_session`. -/
def touched (r : Request) (s : σ) : σ := update (.touchSession r.touchClock) s

theorem Ready.touched {s : σ} (h : Ready s) (r : Request) : Ready (touched r s) where
  session := by rw [Uds.touched, base_update]; exact h.session
  unlocked := by rw [Uds.touched, base_update]; exact h.unlocked

/-- In a running session the check passes. -/
theorem requireProgrammingSession_of_live {serviceId : UInt8} {service : σ → Outcome σ}
    {r : Request} {s : σ} (hs : Ready s) (hr : (base s).sessionExpired r.expiryClock = false) :
    requireProgrammingSession serviceId service r s = service (touched r s) := by
  unfold requireProgrammingSession expireSessionIfNeeded
  rw [hr]
  simp only [Bool.false_eq_true, if_false]
  rw [if_neg (not_not.mpr hs.session)]
  rfl

/-- A positive response comes from the service behind the check. -/
theorem requireProgrammingSession_of_accepted {serviceId other : UInt8} {service : σ → Outcome σ}
    {r : Request} {s : σ} (hother : positiveResponseSid other ≠ sidNegativeResponse)
    (h : (exchange r (requireProgrammingSession serviceId service r s)).Accepted other) :
    (base (touched r s)).currentSession = defaultSessionProgramming ∧
      requireProgrammingSession serviceId service r s = service (touched r s) := by
  rcases requireProgrammingSession_cases serviceId service r s with ⟨-, hprog, heq⟩ | hrefused
  · exact ⟨by rw [touched, base_update]; exact hprog, heq⟩
  · obtain ⟨a, ha, hcode⟩ := List.mem_map.mp h.2
    rcases hrefused a ha with rfl | hnegative
    · exact absurd hcode (by simp [Action.responseCode?])
    · rw [hcode] at hnegative
      exact absurd (Option.some.inj hnegative) hother

theorem routineControl_erase {erase : Bytes → σ → σ} {r : Request} {s : σ} {data : Bytes}
    (hs : Ready s) (hr : (base s).sessionExpired r.expiryClock = false) (hpayload : r.payload =
      [sidRoutineControl, routineControlStart] ++ intToBytes 2 routineEraseMemory ++ data) :
    routineControl erase r s = ⟨erase data (touched r s), routineResponses r, none⟩ := by
  have hlength : ¬ r.payload.length < 4 := by
    rw [hpayload]
    simp
  have hstart : ¬ r.payload.getD 1 0 ≠ routineControlStart := by
    rw [hpayload]
    exact not_not.mpr rfl
  have hid : intFromBytes (slice r.payload 2 4) = routineEraseMemory := by
    rw [hpayload]
    rfl
  rw [routineControl, requireProgrammingSession_of_live hs hr, if_neg hlength,
    if_neg (not_not.mpr (hs.touched r).unlocked), if_neg hstart]
  unfold startRoutine
  dsimp only
  rw [if_pos hid, hpayload]
  rfl

/-- The next block in order is taken whole. -/
theorem receiveBlock_of_expected {r : Request} {s : σ} {size count : ℕ} {data block : Bytes}
    (h : (base s).Holds size data count) (hne : block ≠ []) (hfits : data.length + block.length ≤ size)
    (hpayload : r.payload = [sidTransferData, UInt8.ofNat ((count + 1) % 256)] ++ block) :
    receiveBlock r s = reply [positiveResponseSid sidTransferData, UInt8.ofNat ((count + 1) % 256)]
      (update (.receive block) s) := by
  have hsequence : ¬ (UInt8.ofNat ((count + 1) % 256)).toNat ≠
      (base s).expectedTransferSequence &&& 0xFF := by
    rw [h.sequence, UInt8.toNat_ofNat', show (count + 1) % 256 &&& 0xFF = (count + 1) % 256 % 256 from
      Nat.and_two_pow_sub_one_eq_mod _ 8]
    simp
  have hsome : ¬ (block.isEmpty ∧ (base s).expectedSize ≠ 0) := fun h ↦
    hne (List.isEmpty_iff.mp h.1)
  have hnumber : r.payload.getD 1 0 = UInt8.ofNat ((count + 1) % 256) := by
    rw [hpayload]
    rfl
  have hdata : r.payload.drop 2 = block := by
    rw [hpayload]
    rfl
  unfold receiveBlock
  dsimp only
  rw [hnumber, hdata, if_neg hsequence, h.chunk hfits, if_neg hsome]

theorem receiveBlock_of_unexpected {r : Request} {s : σ} {size count : ℕ} {data : Bytes}
    (h : (base s).Holds size data count) (hne : (r.payload.getD 1 0).toNat ≠ (count + 1) % 256) :
    receiveBlock r s = negative sidTransferData nrcWrongBlockSequenceCounter s := by
  unfold receiveBlock
  dsimp only
  rw [if_pos]
  rw [h.sequence, show (count + 1) % 256 &&& 0xFF = (count + 1) % 256 % 256 from
    Nat.and_two_pow_sub_one_eq_mod _ 8, Nat.mod_mod]
  exact hne

/-- The services of a download, of a server that takes blocks while it is `serving`. -/
structure ServesDownload (handle : Request → σ → Outcome σ) (serving : σ → Prop) : Prop where
  serving_update : ∀ s f, serving s → serving (update f s)
  erase : ∀ r s data, Ready s → Live r s → r.payload =
      [sidRoutineControl, routineControlStart] ++ intToBytes 2 routineEraseMemory ++ data →
    ∃ t, handle r s = ⟨t, routineResponses r, none⟩ ∧ Ready t ∧ (base t).eraseCompleted
  request : ∀ r s parameters, Ready s → (base s).eraseCompleted → Live r s → r.payload =
      [sidRequestDownload, 0x00, 0x44] ++ parameters → parameters.length = 8 →
    (exchange r (handle r s)).Accepted sidRequestDownload ∧
      ∃ lengths, (handle r s).actions = [.send (positiveResponseSid sidRequestDownload :: lengths)]
  requested : ∀ r s, r.payload.head? = some sidRequestDownload →
    (exchange r (handle r s)).Accepted sidRequestDownload →
      Ready (handle r s).state ∧ serving (handle r s).state ∧
        (base (handle r s).state).Holds (exchange r (handle r s)).requestedSize [] 0
  block : ∀ r s, Ready s → serving s → r.payload.head? = some sidTransferData →
    2 ≤ r.payload.length → (base s).sessionExpired r.expiryClock = false →
      handle r s = receiveBlock r (touched r s) ∨
        ¬ Live r s ∧ ∃ code, handle r s = negative sidTransferData code s
  exit : ∀ r s, Ready s → serving s → r.payload = [sidRequestTransferExit] → Live r s →
    ∃ conclude, handle r s =
      if (base s).lengthMismatch then
        negative sidRequestTransferExit nrcIncorrectLengthOrFormat (touched r s)
      else saveAndVerify conclude r (touched r s)

end Server

/-! ## The CAN programmer -/

namespace UDSCanProgrammer

variable {r : Request} {p : UDSCanProgrammer}

theorem handleUds_of_live {serviceId : UInt8} (hhead : r.payload.head? = some serviceId)
    (hr : Live r p) : handleUds r p = serve serviceId r p :=
  handleUds_of_enabled hhead hr.diagnostics fun _ ↦ hr.programming

theorem holds_beginDownload (size : ℕ) (p : UDSCanProgrammer) :
    (p.beginDownload size).base.Holds size [] 0 where
  buffer := rfl
  limit _ h := (Option.some.inj h).symm
  expectedSize := rfl
  receivedSize := rfl
  sequence := rfl

theorem servesDownload : ServesDownload handleUds (fun p ↦ p.downloadRequested) where
  serving_update _ _ h := h
  erase r p data hp hr hpayload := by
    rw [handleUds_of_live (by rw [hpayload]; rfl) hr]
    have hready := hp.touched r
    exact ⟨(touched r p).eraseMemory data, routineControl_erase hp hr.unexpired hpayload,
      ⟨hready.session, hready.unlocked⟩, rfl⟩
  request r p parameters hp herased hr hpayload hlength := by
    have hhead : r.payload.head? = some sidRequestDownload := by
      rw [hpayload]
      rfl
    have heq : handleUds r p = reply [positiveResponseSid sidRequestDownload, 0x00, 0x44, 0x00, 0x40]
        ((touched r p).beginDownload (intFromBytes (lastBytes r.payload 4))) := by
      have hunlocked : (touched r p).base.securityUnlocked := (hp.touched r).unlocked
      have herased : (touched r p).base.eraseCompleted := herased
      rw [handleUds_of_live hhead hr]
      change requestDownload r p = _
      rw [requestDownload, requireProgrammingSession_of_live hp hr.unexpired,
        if_neg (not_or.mpr ⟨not_not.mpr hunlocked, not_not.mpr herased⟩),
        if_neg (by rw [hpayload, List.length_append, hlength]; decide),
        if_neg (by rw [hpayload]; simp)]
    rw [heq]
    exact ⟨⟨hhead, by simp [exchange, reply, Action.responseCode?]⟩, _, rfl⟩
  requested r p hhead haccepted := by
    rcases handleUds_cases hhead with ⟨-, -, heq⟩ | ⟨-, heq⟩
    · change handleUds r p = requestDownload r p at heq
      rw [heq] at haccepted ⊢
      obtain ⟨hprog, hservice⟩ := requireProgrammingSession_of_accepted (by decide) haccepted
      unfold requestDownload at haccepted ⊢
      rw [hservice] at haccepted ⊢
      split
      · rename_i hguard
        rw [if_pos hguard] at haccepted
        exact absurd haccepted (tame_negative _ _ _ _).notRequested
      rename_i hguard
      rw [if_neg hguard] at haccepted
      split
      · rename_i hlength
        rw [if_pos hlength] at haccepted
        exact absurd haccepted (tame_negative _ _ _ _).notRequested
      rename_i hlength
      rw [if_neg hlength] at haccepted
      split
      · rename_i hformat
        rw [if_pos hformat] at haccepted
        exact absurd haccepted (tame_negative _ _ _ _).notRequested
      · exact ⟨⟨hprog, not_not.mp (not_or.mp hguard).1⟩, rfl, holds_beginDownload _ _⟩
    · rw [heq] at haccepted
      exact absurd haccepted (tame_negative _ _ _ _).notRequested
  block r p hp hserving hhead hlength hr := by
    rcases handleUds_cases hhead with ⟨-, -, heq⟩ | ⟨hdisabled, heq⟩
    · left
      have hunlocked : (touched r p).base.securityUnlocked := (hp.touched r).unlocked
      have hserving : (touched r p).downloadRequested := hserving
      rw [heq]
      change transferData r p = _
      rw [transferData, requireProgrammingSession_of_live hp hr, if_neg (not_lt.mpr hlength),
        if_neg (not_not.mpr hunlocked), if_neg (not_not.mpr hserving)]
    · right
      exact ⟨fun h ↦ hdisabled.elim (absurd h.diagnostics) (absurd h.programming), _, heq⟩
  exit r p hp hserving hpayload hr := by
    have hunlocked : (touched r p).base.securityUnlocked := (hp.touched r).unlocked
    have hserving : (touched r p).downloadRequested := hserving
    refine ⟨conclude, ?_⟩
    rw [handleUds_of_live (by rw [hpayload]; rfl) hr]
    change requestTransferExit r p = _
    rw [requestTransferExit, requireProgrammingSession_of_live hp hr.unexpired,
      if_neg (not_not.mpr hunlocked), if_neg (not_not.mpr hserving)]
    rfl

end UDSCanProgrammer

/-! ## The flash proxy -/

namespace ECUContext

variable {blockLength : ℕ} {r : Request} {ecu : ECUContext}

theorem holds_beginDownload (size : ℕ) (ecu : ECUContext) :
    (ecu.beginDownload size).base.Holds size [] 0 where
  buffer := rfl
  limit _ h := absurd h (by simp [beginDownload, ProgrammingState.beginDownload,
    FirmwareReceiver.clear])
  expectedSize := rfl
  receivedSize := rfl
  sequence := rfl

theorem servesDownload (blockLength : ℕ) :
    ServesDownload (handle blockLength) (fun _ ↦ True) where
  serving_update _ _ h := h
  erase r ecu data hecu hr hpayload := by
    rw [handle_of_head (by rw [hpayload]; rfl)]
    have hready := hecu.touched r
    exact ⟨(touched r ecu).eraseMemory data, routineControl_erase hecu hr.unexpired hpayload,
      ⟨hready.session, hready.unlocked⟩, rfl⟩
  request r ecu parameters hecu herased hr hpayload _ := by
    have hhead : r.payload.head? = some sidRequestDownload := by
      rw [hpayload]
      rfl
    have heq : handle blockLength r ecu =
        reply ([positiveResponseSid sidRequestDownload, 0x00, 0x44] ++ intToBytes 2 blockLength)
          ((touched r ecu).beginDownload (intFromBytes (lastBytes r.payload 4))) := by
      have hunlocked : (touched r ecu).base.securityUnlocked := (hecu.touched r).unlocked
      have herased : (touched r ecu).base.eraseCompleted := herased
      rw [handle_of_head hhead]
      change requestDownload blockLength r ecu = _
      rw [requestDownload, requireProgrammingSession_of_live hecu hr.unexpired,
        if_neg (not_or.mpr ⟨not_not.mpr hunlocked, not_not.mpr herased⟩)]
    rw [heq]
    exact ⟨⟨hhead, by simp [exchange, reply, Action.responseCode?]⟩, _, rfl⟩
  requested r ecu hhead haccepted := by
    have heq : handle blockLength r ecu = requestDownload blockLength r ecu := handle_of_head hhead
    rw [heq] at haccepted ⊢
    obtain ⟨hprog, hservice⟩ := requireProgrammingSession_of_accepted (by decide) haccepted
    unfold requestDownload at haccepted ⊢
    rw [hservice] at haccepted ⊢
    split
    · rename_i hguard
      rw [if_pos hguard] at haccepted
      exact absurd haccepted (tame_negative _ _ _ _).notRequested
    · rename_i hguard
      exact ⟨⟨hprog, not_not.mp (not_or.mp hguard).1⟩, trivial, holds_beginDownload _ _⟩
  block r ecu hecu _ hhead hlength hr := by
    left
    have hunlocked : (touched r ecu).base.securityUnlocked := (hecu.touched r).unlocked
    rw [handle_of_head hhead]
    change transferData r ecu = _
    rw [transferData, requireProgrammingSession_of_live hecu hr, if_neg (not_lt.mpr hlength),
      if_neg (not_not.mpr hunlocked)]
  exit r ecu hecu _ hpayload hr := by
    have hunlocked : (touched r ecu).base.securityUnlocked := (hecu.touched r).unlocked
    refine ⟨conclude, ?_⟩
    rw [handle_of_head (by rw [hpayload]; rfl)]
    change requestTransferExit r ecu = _
    rw [requestTransferExit, requireProgrammingSession_of_live hecu hr.unexpired,
      if_neg (not_not.mpr hunlocked)]
    rfl

end ECUContext

end VehicleOta.Uds
