import VehicleOta.Common.CanonicalJson
import VehicleOta.Zones.ZoneController

/-!
# The inventory of a zone as a message

`health`, `inventory`, `_heartbeat_health` and `_ecu_availability` of `ZoneController`, with all that
they say.  The clock is read once.
-/

namespace VehicleOta

def Availability.name : Availability → String
  | .online => "ONLINE"
  | .starting => "STARTING"
  | .offline => "OFFLINE"
  | .unmonitored => "UNMONITORED"

/-- `round(x, 3)` -/
def roundThousandths (x : ℚ) : ℚ :=
  let below := ⌊x * 1000⌋
  let rest := x * 1000 - below
  if rest < 1 / 2 then below / 1000
  else if 1 / 2 < rest then (below + 1) / 1000
  else if below % 2 = 0 then below / 1000
  else (below + 1) / 1000

/-- `f"0x{n:02X}"` -/
def hexService (n : ℤ) : String :=
  let digits := (Nat.toDigits 16 n.natAbs).map Char.toUpper
  let width := if n < 0 then 1 else 2
  "0x" ++ (if n < 0 then "-" else "") ++
    String.ofList (List.replicate (width - digits.length) '0' ++ digits)

/-- The `metrics` of a controller. -/
structure ZoneMetrics where
  requests : ℕ := 0
  forwarded : ℕ := 0
  rejected : ℕ := 0
  timeouts : ℕ := 0
  heartbeatFrames : ℕ := 0
  lastError : String := ""
  lastServiceId : String := ""
  lastLatencyMs : ℤ := 0

def ZoneMetrics.message (m : ZoneMetrics) : Json :=
  .dict [("requests", .int m.requests), ("forwarded", .int m.forwarded),
    ("rejected", .int m.rejected), ("timeouts", .int m.timeouts),
    ("heartbeat_frames", .int m.heartbeatFrames), ("last_error", .str m.lastError),
    ("last_service_id", .str m.lastServiceId), ("last_latency_ms", .int m.lastLatencyMs)]

/-- The numbers that `json.loads` reads back. -/
def ZoneMetrics.Bounded (m : ZoneMetrics) : Prop :=
  ∀ n ∈ [(m.requests : ℤ), m.forwarded, m.rejected, m.timeouts, m.heartbeatFrames, m.lastLatencyMs],
    (digitsOf n.natAbs).length ≤ 4300

instance (m : ZoneMetrics) : Decidable m.Bounded := by
  unfold ZoneMetrics.Bounded
  infer_instance

namespace ZoneController

-- the float of a number
variable (c : ZoneController) (number : ℚ → Json) (now : ℚ)

/-- `_ecu_availability` -/
def availabilityMessage (canId : ℤ) : Json :=
  .dict [("state", .str (c.ecuAvailability now canId).name), ("last_seen_age_seconds",
    if ¬ c.options.heartbeatMonitorEnabled then .null
    else
      match c.heartbeatLastSeen.get? canId with
      | none => .null
      | some lastSeen => number (roundThousandths (now - lastSeen)))]

/-! ## Health -/

def namesWith (present : Availability → Bool) : List String :=
  (c.config.ecus.values.filter fun ecu ↦ present (c.ecuAvailability now ecu.canId)).map
    VehicleTopology.EcuInfo.ecuName

def onlineEcus : List String := c.namesWith now fun a ↦ a = .online || a = .starting

def offlineEcus : List String := c.namesWith now fun a ↦ !(a = .online || a = .starting)

/-- The `state` of `_heartbeat_health` with the monitor enabled. -/
def heartbeatState : String :=
  if c.onlineEcus now ≠ [] ∧ Availability.starting ∈ c.availabilities now then "STARTING"
  else if c.onlineEcus now = [] ∧ c.offlineEcus now = [] then "ONLINE"
  else if c.offlineEcus now ≠ [] then if c.onlineEcus now ≠ [] then "DEGRADED" else "OFFLINE"
  else "ONLINE"

/-- `_heartbeat_health` -/
def heartbeatHealth : Json :=
  if ¬ c.options.heartbeatMonitorEnabled then
    .dict [("enabled", .bool false), ("state", .str "UNMONITORED"), ("online_ecus", .list []),
      ("offline_ecus", .list []), ("timeout_seconds", number c.options.heartbeatTimeoutSeconds)]
  else
    .dict [("enabled", .bool true), ("state", .str (c.heartbeatState now)),
      ("online_ecus", .list ((c.onlineEcus now).map .str)),
      ("offline_ecus", .list ((c.offlineEcus now).map .str)),
      ("timeout_seconds", number c.options.heartbeatTimeoutSeconds),
      ("grace_seconds", number c.options.heartbeatGraceSeconds)]

/-- `health` -/
def healthMessage : Json :=
  .dict [("zone_id", .str c.config.zoneId), ("state", .str (c.healthState now)),
    ("can_channel", .str c.config.canChannel), ("reason", .str (healthReason (c.healthState now))),
    ("heartbeat_monitor", c.heartbeatHealth number now)]

/-! ## The inventory -/

/-- An element of `ecus`. -/
def ecuMessage (entry : ℤ × VehicleTopology.EcuInfo) : Json :=
  .dict [("logical_address", .str (hex entry.1)), ("ecu_name", .str entry.2.ecuName),
    ("can_id", .str (hex entry.2.canId)),
    ("availability", c.availabilityMessage number now entry.2.canId)]

/-- The inventory for these services. -/
def inventoryOf (metrics : ZoneMetrics) (allowedServices : List ℤ) : Json :=
  .dict [("zone_id", .str c.config.zoneId), ("display_name", .str c.config.displayName),
    ("can_channel", .str c.config.canChannel), ("health", c.healthMessage number now),
    ("policy", .dict [("programming_allowed", .bool c.programmingAllowed), ("allowed_services",
      .list ((allowedServices.dedup.insertionSort (· ≤ ·)).map fun n ↦ .str (hexService n)))]),
    ("metrics", metrics.message),
    ("ecus", .list (c.config.ecus.entries.map (c.ecuMessage number now)))]

/-- `inventory` -/
def inventoryMessage (metrics : ZoneMetrics) : Except PyError Json := do
  return c.inventoryOf number now metrics (← c.allowedServices)

/-! ## What can be sent -/

section Printable

variable {c number now} {float : List Char → Json}

theorem printable_texts (texts : List String) : Json.Printable float (.list (texts.map .str)) := by
  apply Json.Printable.list
  intro x hx
  obtain ⟨text, -, rfl⟩ := List.mem_map.mp hx
  exact .str text

theorem printable_metrics {m : ZoneMetrics} (h : m.Bounded) : Json.Printable float m.message := by
  simp only [ZoneMetrics.Bounded, List.forall_mem_cons, List.not_mem_nil, false_implies,
    implies_true, and_true] at h
  obtain ⟨hrequests, hforwarded, hrejected, htimeouts, hframes, hlatency⟩ := h
  apply Json.Printable.dict
  · exact (by decide : ["requests", "forwarded", "rejected", "timeouts", "heartbeat_frames",
      "last_error", "last_service_id", "last_latency_ms"].Nodup)
  · simp only [List.forall_mem_cons, List.not_mem_nil, false_implies, implies_true, and_true]
    exact ⟨.int hrequests, .int hforwarded, .int hrejected, .int htimeouts, .int hframes, .str _,
      .str _, .int hlatency⟩

variable (hnumber : ∀ x, Json.Printable float (number x))

include hnumber

theorem printable_availability (canId : ℤ) :
    Json.Printable float (c.availabilityMessage number now canId) := by
  apply Json.Printable.dict
  · exact (by decide : ["state", "last_seen_age_seconds"].Nodup)
  · simp only [List.forall_mem_cons, List.not_mem_nil, false_implies, implies_true, and_true]
    refine ⟨.str _, ?_⟩
    split
    · exact .null
    · split
      · exact .null
      · exact hnumber _

theorem printable_heartbeatHealth : Json.Printable float (c.heartbeatHealth number now) := by
  rw [heartbeatHealth]
  split
  · apply Json.Printable.dict
    · exact (by decide : ["enabled", "state", "online_ecus", "offline_ecus",
        "timeout_seconds"].Nodup)
    · simp only [List.forall_mem_cons, List.not_mem_nil, false_implies, implies_true, and_true]
      exact ⟨.bool _, .str _, printable_texts [], printable_texts [], hnumber _⟩
  · apply Json.Printable.dict
    · exact (by decide : ["enabled", "state", "online_ecus", "offline_ecus", "timeout_seconds",
        "grace_seconds"].Nodup)
    · simp only [List.forall_mem_cons, List.not_mem_nil, false_implies, implies_true, and_true]
      exact ⟨.bool _, .str _, printable_texts _, printable_texts _, hnumber _, hnumber _⟩

theorem printable_health : Json.Printable float (c.healthMessage number now) := by
  apply Json.Printable.dict
  · exact (by decide : ["zone_id", "state", "can_channel", "reason", "heartbeat_monitor"].Nodup)
  · simp only [List.forall_mem_cons, List.not_mem_nil, false_implies, implies_true, and_true]
    exact ⟨.str _, .str _, .str _, .str _, printable_heartbeatHealth hnumber⟩

theorem printable_ecu (entry : ℤ × VehicleTopology.EcuInfo) :
    Json.Printable float (c.ecuMessage number now entry) := by
  apply Json.Printable.dict
  · exact (by decide : ["logical_address", "ecu_name", "can_id", "availability"].Nodup)
  · simp only [List.forall_mem_cons, List.not_mem_nil, false_implies, implies_true, and_true]
    exact ⟨.str _, .str _, .str _, printable_availability hnumber _⟩

theorem printable_inventory {metrics : ZoneMetrics} (hmetrics : metrics.Bounded)
    (allowedServices : List ℤ) :
    Json.Printable float (c.inventoryOf number now metrics allowedServices) := by
  apply Json.Printable.dict
  · exact (by decide : ["zone_id", "display_name", "can_channel", "health", "policy", "metrics",
      "ecus"].Nodup)
  · simp only [List.forall_mem_cons, List.not_mem_nil, false_implies, implies_true, and_true]
    refine ⟨.str _, .str _, .str _, printable_health hnumber, ?_, printable_metrics hmetrics, ?_⟩
    · apply Json.Printable.dict
      · exact (by decide : ["programming_allowed", "allowed_services"].Nodup)
      · simp only [List.forall_mem_cons, List.not_mem_nil, false_implies, implies_true, and_true]
        refine ⟨.bool _, ?_⟩
        rw [← Function.comp_def Json.str hexService, ← List.map_map]
        exact printable_texts _
    · apply Json.Printable.list
      intro x hx
      obtain ⟨entry, -, rfl⟩ := List.mem_map.mp hx
      exact printable_ecu hnumber entry

end Printable

end ZoneController

end VehicleOta
