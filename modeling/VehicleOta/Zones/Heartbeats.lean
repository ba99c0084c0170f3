import VehicleOta.Can.CanProtocol
import VehicleOta.Trace.Presence
import VehicleOta.Zones.ZoneController

/-!
# Heartbeats

`ECUHeartbeatPublisher._run` of `ecus/base/heartbeat.py` and `ZoneController._monitor_heartbeats`.
The monitor meets all the frames of its channel, each at a time of its own clock.
-/

namespace VehicleOta

open Can TraceLogic

/-! ## The publisher -/

structure ECUHeartbeatPublisher where
  ecuId : ℕ
  sequence : ℕ := 0

namespace ECUHeartbeatPublisher

/-- A round of the loop: its time, the flag `heartbeat_enabled` of the runtime control file, and
whether the interface sends. -/
structure Round where
  time : ℚ
  heartbeatEnabled : Bool := true
  sends : Bool := true

/-- One pass of the loop of `_run`, with the frame on the channel. -/
def round (p : ECUHeartbeatPublisher) (r : Round) :
    Except PyError (ECUHeartbeatPublisher × List (ℚ × CanMessage)) :=
  if ¬ r.heartbeatEnabled then .ok (p, [])
  else do
    let message ← CANProtocol.createMessage p.ecuId .heartbeat [UInt8.ofNat p.sequence]
    return ({ p with sequence := (p.sequence + 1) % 256 }, if r.sends then [(r.time, message)] else [])

/-- The frames of all the rounds. -/
def run (p : ECUHeartbeatPublisher) : List Round → Except PyError (List (ℚ × CanMessage))
  | [] => .ok []
  | r :: rounds => do
      let (p, frames) ← p.round r
      return frames ++ (← p.run rounds)

end ECUHeartbeatPublisher

/-! ## The monitor -/

/-- A heartbeat of the ECU with this CAN id. -/
def isHeartbeat (canId : ℤ) (message : CanMessage) : Bool :=
  (message.arbitrationId : ℤ) = canId && message.data.head? = some MessageType.heartbeat.code

namespace ZoneController

/-- The loop body of `_monitor_heartbeats` on a message at a time. -/
def monitorHeartbeat (c : ZoneController) (received : ℚ × CanMessage) : ZoneController :=
  let canIds := c.config.ecus.values.map VehicleTopology.EcuInfo.canId
  if (received.2.arbitrationId : ℤ) ∉ canIds then c
  else
    match received.2.data with
    | [] => c
    | code :: _ =>
        match MessageType.ofCode code with
        | .error _ => c
        | .ok messageType =>
            if messageType ≠ .heartbeat then c
            else { c with
              heartbeatLastSeen := c.heartbeatLastSeen.set received.2.arbitrationId received.1 }

/-- `_monitor_heartbeats` -/
def monitorHeartbeats (c : ZoneController) (history : List (ℚ × CanMessage)) : ZoneController :=
  history.foldl monitorHeartbeat c

/-! ### What a frame does -/

variable (c : ZoneController) (history : List (ℚ × CanMessage))

theorem ofCode_eq_heartbeat {code : UInt8} :
    MessageType.ofCode code = .ok .heartbeat ↔ code = MessageType.heartbeat.code := by
  constructor
  · intro h
    rw [MessageType.ofCode] at h
    split at h
    · rename_i t ht
      obtain rfl := Except.ok.inj h
      have hcode := List.find?_some ht
      exact (of_decide_eq_true hcode).symm
    · cases h
  · rintro rfl
    exact MessageType.ofCode_code .heartbeat

theorem monitorHeartbeat_eq (received : ℚ × CanMessage) :
    c.monitorHeartbeat received =
      if (received.2.arbitrationId : ℤ) ∈ c.config.ecus.values.map VehicleTopology.EcuInfo.canId ∧
          isHeartbeat received.2.arbitrationId received.2 then
        { c with heartbeatLastSeen :=
            c.heartbeatLastSeen.set received.2.arbitrationId received.1 }
      else c := by
  rw [monitorHeartbeat]
  by_cases hid : (received.2.arbitrationId : ℤ) ∈
      c.config.ecus.values.map VehicleTopology.EcuInfo.canId
  · rw [if_neg (not_not.mpr hid)]
    cases hdata : received.2.data with
    | nil => simp [isHeartbeat, hdata]
    | cons code rest =>
        by_cases hcode : code = MessageType.heartbeat.code
        · obtain rfl := hcode
          simp [isHeartbeat, hdata, hid]
        · have hother : MessageType.ofCode code ≠ .ok .heartbeat :=
            fun h ↦ hcode (ofCode_eq_heartbeat.mp h)
          cases htype : MessageType.ofCode code with
          | error e => simp [isHeartbeat, hdata, hcode, htype]
          | ok messageType =>
              rw [htype] at hother
              have hne : messageType ≠ .heartbeat := fun h ↦ hother (congrArg Except.ok h)
              simp [isHeartbeat, hdata, hcode, htype, hne]
  · rw [if_pos hid, if_neg fun h ↦ hid h.1]

/-- The monitor changes nothing but `heartbeat_last_seen`. -/
theorem monitorHeartbeat_frame (received : ℚ × CanMessage) :
    (c.monitorHeartbeat received).config = c.config ∧
      (c.monitorHeartbeat received).options = c.options ∧
      (c.monitorHeartbeat received).startedAt = c.startedAt := by
  rw [monitorHeartbeat_eq]
  split <;> exact ⟨rfl, rfl, rfl⟩

theorem monitorHeartbeats_concat (received : ℚ × CanMessage) :
    c.monitorHeartbeats (history ++ [received]) =
      (c.monitorHeartbeats history).monitorHeartbeat received :=
  List.foldl_concat ..

theorem monitorHeartbeats_frame :
    (c.monitorHeartbeats history).config = c.config ∧
      (c.monitorHeartbeats history).options = c.options ∧
      (c.monitorHeartbeats history).startedAt = c.startedAt := by
  induction history using List.reverseRecOn with
  | nil => exact ⟨rfl, rfl, rfl⟩
  | append_singleton history received ih =>
      obtain ⟨hconfig, hoptions, hstarted⟩ := ih
      obtain ⟨hconfig', hoptions', hstarted'⟩ :=
        (c.monitorHeartbeats history).monitorHeartbeat_frame received
      rw [monitorHeartbeats_concat]
      exact ⟨hconfig'.trans hconfig, hoptions'.trans hoptions, hstarted'.trans hstarted⟩

theorem isHeartbeat_iff {canId : ℤ} {message : CanMessage} :
    isHeartbeat canId message ↔
      (message.arbitrationId : ℤ) = canId ∧ isHeartbeat message.arbitrationId message := by
  simp [isHeartbeat]

/-- Of an ECU of the zone, the monitor knows the last heartbeat. -/
theorem heartbeatLastSeen_monitor {canId : ℤ}
    (hid : canId ∈ c.config.ecus.values.map VehicleTopology.EcuInfo.canId)
    (hfresh : c.heartbeatLastSeen.get? canId = none) :
    (c.monitorHeartbeats history).heartbeatLastSeen.get? canId =
      lastSeen (isHeartbeat canId) history := by
  induction history using List.reverseRecOn with
  | nil => exact hfresh
  | append_singleton history received ih =>
      rw [monitorHeartbeats_concat, monitorHeartbeat_eq, lastSeen_concat,
        (c.monitorHeartbeats_frame history).1]
      by_cases hsame : (received.2.arbitrationId : ℤ) = canId
      · obtain rfl := hsame
        by_cases hbeat : isHeartbeat received.2.arbitrationId received.2
        · rw [if_pos ⟨hid, hbeat⟩, if_pos hbeat]
          exact Dict.get?_set_self _ _ _
        · rw [if_neg fun h ↦ hbeat h.2, if_neg hbeat]
          exact ih
      · rw [if_neg (c := isHeartbeat canId received.2 = true) fun h ↦ hsame (isHeartbeat_iff.mp h).1]
        split
        · exact (Dict.get?_set_of_ne _ _ (Ne.symm hsame)).trans ih
        · exact ih

/-- An ECU is used while its last heartbeat is recent, and before its first one for a while. -/
theorem usable_monitor_iff {canId : ℤ} (now : ℚ)
    (henabled : c.options.heartbeatMonitorEnabled)
    (hid : canId ∈ c.config.ecus.values.map VehicleTopology.EcuInfo.canId)
    (hfresh : c.heartbeatLastSeen.get? canId = none)
    (hordered : (history.map Prod.fst).Pairwise (· ≤ ·)) :
    usable ((c.monitorHeartbeats history).ecuAvailability now canId) ↔
      (∃ e ∈ history, isHeartbeat canId e.2 ∧
        now - e.1 ≤ c.options.heartbeatTimeoutSeconds) ∨
      (∀ e ∈ history, ¬ isHeartbeat canId e.2) ∧
        now - c.startedAt < c.options.heartbeatGraceSeconds := by
  obtain ⟨-, hoptions, hstarted⟩ := c.monitorHeartbeats_frame history
  rw [ecuAvailability, hoptions, hstarted, if_neg (not_not.mpr henabled),
    c.heartbeatLastSeen_monitor history hid hfresh]
  cases hlast : lastSeen (isHeartbeat canId) history with
  | none =>
      have hnone := lastSeen_eq_none_iff.mp hlast
      constructor
      · intro h
        refine Or.inr ⟨hnone, ?_⟩
        by_contra hlate
        rw [if_neg hlate] at h
        cases h
      · rintro (⟨e, he, hbeat, -⟩ | ⟨-, hearly⟩)
        · exact absurd hbeat (hnone e he)
        · rw [if_pos hearly]
          rfl
  | some t =>
      obtain ⟨e, he, hbeat, htime⟩ := exists_of_lastSeen hlast
      dsimp only
      constructor
      · intro h
        refine Or.inl ⟨e, he, hbeat, ?_⟩
        by_contra hlate
        rw [htime] at hlate
        rw [if_neg hlate] at h
        cases h
      · rintro (⟨e', he', hbeat', hrecent⟩ | ⟨hnone, -⟩)
        · have hle := le_lastSeen hordered hlast he' hbeat'
          rw [if_pos ((sub_le_sub_left hle now).trans hrecent)]
          rfl
        · exact absurd hbeat (hnone e he)

end ZoneController

/-! ## The two together -/

namespace ECUHeartbeatPublisher

section Gate

variable {p : ECUHeartbeatPublisher} {rounds : List Round} {latency period start stop now : ℚ}
  {history : List (ℚ × CanMessage)}

end Gate

end ECUHeartbeatPublisher

namespace ZoneController

open ECUHeartbeatPublisher

variable {c : ZoneController} {p : ECUHeartbeatPublisher} {rounds : List Round}
  {latency period start stop now : ℚ} {history : List (ℚ × CanMessage)}

end ZoneController

/-! ## What the zone makes of a publisher -/

def bodyZone : ZoneController where
  config := {
    zoneId := "body_zone"
    displayName := "Body Zone Controller"
    canChannel := "vcan_bcm"
    servicePort := 15002
    defaultHealth := "AUTO"
    programmingAllowed := true
    allowedServices := [0x10, 0x22, 0x3E]
    ecus := Dict.ofPairs [(0x1002, bcm)] }
where
  bcm : VehicleTopology.EcuInfo := {
    ecuName := "BCM ECU"
    canId := 0x202
    criticality := "critical"
    dependencies := ["Gateway ECU"]
    onUnavailable := "abort_campaign"
    onDependencyFailed := "abort_campaign" }

end VehicleOta
