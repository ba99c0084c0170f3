import VehicleOta.Zones.Heartbeats
import VehicleOta.Zones.RemoteZones

/-!
# The guard in front of the CAN transport

`ZoneAvailabilityGuard` of `tcu/zone_availability_guard.py`.  It asks the services of all the zones,
and what it decides is what the heartbeats on the channels of the zones say.
-/

namespace VehicleOta

open Can TraceLogic ZoneProtocol

/-- The environment variables of the guard. -/
structure ZoneAvailabilityGuard where
  vcanZoneGuardEnabled : String := "1"
  useZonalControllers : String := "0"

namespace ZoneAvailabilityGuard

def enabled (g : ZoneAvailabilityGuard) : Bool :=
  ZoneController.lower g.vcanZoneGuardEnabled ∈ ["1", "true", "yes", "on"] &&
    ZoneController.lower g.useZonalControllers ∈ ["1", "true", "yes", "on"]

/-- `dict(x)`; a list of pairs is not taken for one. -/
def toDict (x : Json) : Except PyError Json :=
  match x with
  | .dict entries => .ok (.dict entries)
  | .list [] | .str "" => .ok (.dict [])
  | .list _ | .str _ =>
      .error (.valueError "dictionary update sequence element #0 has length 1; 2 is required")
  | x => .error (.typeError ("'" ++ x.typeName ++ "' object is not iterable"))

/-- The loop over the ECUs of an inventory. -/
def findEcu (ecuName : String) : List Json → Except PyError (Option Json)
  | [] => .ok none
  | ecu :: ecus => do
      if (← ecu.getD "ecu_name" .null).eq (.str ecuName) then return some ecu
      else findEcu ecuName ecus

/-- The loop body of `ecu_availability`. -/
def availabilityIn (ecuName : String) (inventory : Json) : Except PyError (Option Json) := do
  let zoneHealth ← inventory.getD "health" (.dict [])
  match ← findEcu ecuName (← (← inventory.getD "ecus" (.list [])).iter) with
  | none => return none
  | some ecu => do
      let availability ← toDict (← ecu.getD "availability" (.dict []))
      let availability ← availability.setItem "zone_id" (← inventory.getD "zone_id" .null)
      let availability ← availability.setItem "zone_state" (← zoneHealth.getD "state" .null)
      return some (← availability.setItem "reason" (← zoneHealth.getD "reason" .null))

/-- `ecu_availability` -/
def ecuAvailability (ecuName : String) : List Json → Except PyError Json
  | [] => .error (.keyError (ecuName ++ " not found in live zone inventory"))
  | inventory :: inventories => do
      match ← availabilityIn ecuName inventory with
      | some availability => return availability
      | none => ecuAvailability ecuName inventories

/-- What `require_ecu_online` makes of an availability. -/
def requireState (ecuName : String) (availability : Json) : Except PyError Unit := do
  let state ← availability.getD "state" (.str "UNKNOWN")
  if ¬ state.hashable then .error (.typeError ("unhashable type: '" ++ state.typeName ++ "'"))
  else
    let reason ← availability.getD "reason" (.str "UNKNOWN")
    raiseIf (¬ ["ONLINE", "STARTING", "UNMONITORED"].any fun name ↦ state.eq (.str name))
      (.runtimeError ("Zone heartbeat gate rejected " ++ ecuName ++ ": state=" ++
        formatValue state ++ " reason=" ++ formatValue reason))

/-- `require_ecu_online`, with what `client.inventory()` returns. -/
def requireEcuOnline (g : ZoneAvailabilityGuard) (inventories : Except ZoneError (List Json))
    (ecuName : String) : Except ZoneError Unit :=
  if ¬ g.enabled then .ok ()
  else do
    let live ← inventories
    ZoneTransportClient.lift do requireState ecuName (← ecuAvailability ecuName live)

/-- `is_ecu_online` -/
def isEcuOnline (g : ZoneAvailabilityGuard) (inventories : Except ZoneError (List Json))
    (ecuName : String) : Bool :=
  match g.requireEcuOnline inventories ecuName with
  | .ok _ => true
  | .error _ => false

/-! ## Inventories of the zones -/

section Inventory

variable (c : ZoneController) (number : ℚ → Json) (now : ℚ) (ecuName : String)

/-- The availability of an ECU with what the guard adds to it. -/
def guardedAvailability (ecu : VehicleTopology.EcuInfo) : Json :=
  .dict [("state", .str (c.ecuAvailability now ecu.canId).name),
    ("last_seen_age_seconds",
      if ¬ c.options.heartbeatMonitorEnabled then .null
      else
        match c.heartbeatLastSeen.get? ecu.canId with
        | none => .null
        | some lastSeen => number (roundThousandths (now - lastSeen))),
    ("zone_id", .str c.config.zoneId), ("zone_state", .str (c.healthState now)),
    ("reason", .str (ZoneController.healthReason (c.healthState now)))]

theorem findEcu_ecuMessage (entries : List (ℤ × VehicleTopology.EcuInfo)) :
    findEcu ecuName (entries.map (c.ecuMessage number now)) =
      .ok ((entries.find? fun entry ↦ entry.2.ecuName = ecuName).map
        (c.ecuMessage number now)) := by
  induction entries with
  | nil => rfl
  | cons entry entries ih =>
      have hname : (c.ecuMessage number now entry).getD "ecu_name" .null =
          .ok (.str entry.2.ecuName) := rfl
      by_cases h : entry.2.ecuName = ecuName
      · simp [findEcu, hname, h, Json.eq, bind, Except.bind, pure, Except.pure]
      · simp [findEcu, hname, h, Json.eq, bind, Except.bind, ih]

theorem availabilityIn_inventoryOf (metrics : ZoneMetrics) (allowedServices : List ℤ) :
    availabilityIn ecuName (c.inventoryOf number now metrics allowedServices) =
      .ok ((c.config.ecus.values.find? fun ecu ↦ ecu.ecuName = ecuName).map
        (guardedAvailability c number now)) := by
  have hhealth : (c.inventoryOf number now metrics allowedServices).getD "health" (.dict []) =
      .ok (c.healthMessage number now) := rfl
  have hecus : (c.inventoryOf number now metrics allowedServices).getD "ecus" (.list []) =
      .ok (.list (c.config.ecus.entries.map (c.ecuMessage number now))) := rfl
  have hvalues : (c.config.ecus.values.find? fun ecu ↦ ecu.ecuName = ecuName) =
      (c.config.ecus.entries.find? fun entry ↦ entry.2.ecuName = ecuName).map Prod.snd := by
    rw [Dict.values, List.find?_map]
    rfl
  have hiter : (Json.list (c.config.ecus.entries.map (c.ecuMessage number now))).iter =
      .ok (c.config.ecus.entries.map (c.ecuMessage number now)) := rfl
  rw [availabilityIn, hhealth, hecus, hvalues]
  simp only [bind, Except.bind, hiter, findEcu_ecuMessage]
  cases c.config.ecus.entries.find? fun entry ↦ entry.2.ecuName = ecuName with
  | none => rfl
  | some entry => rfl

/-- What the guard says of an availability that a zone reports. -/
theorem requireState_guarded (ecu : VehicleTopology.EcuInfo) :
    requireState ecuName (guardedAvailability c number now ecu) =
      if ZoneController.usable (c.ecuAvailability now ecu.canId) then .ok ()
      else .error (.runtimeError ("Zone heartbeat gate rejected " ++ ecuName ++
        ": state=OFFLINE reason=" ++ ZoneController.healthReason (c.healthState now))) := by
  have hstate : (guardedAvailability c number now ecu).getD "state" (.str "UNKNOWN") =
      .ok (.str (c.ecuAvailability now ecu.canId).name) := rfl
  have hreason : (guardedAvailability c number now ecu).getD "reason" (.str "UNKNOWN") =
      .ok (.str (ZoneController.healthReason (c.healthState now))) := rfl
  have htext : ": state=OFFLINE reason=" = ": state=" ++ "OFFLINE" ++ " reason=" := by decide
  rw [requireState, hstate, htext]
  simp only [bind, Except.bind, hreason]
  cases c.ecuAvailability now ecu.canId <;>
    simp [Json.hashable, Availability.name, Json.eq, raiseIf, ZoneController.usable, formatValue,
      String.append_assoc]

end Inventory

end ZoneAvailabilityGuard

/-! ## The services of the zones -/

def ZoneService.zoneId (s : ZoneService) : String := s.controller.config.zoneId

/-- The message with the inventory, where the zone's services are allowed. -/
def ZoneService.inventoryResponse (s : ZoneService) (allowedServices : List ℤ) : Json :=
  s.respond "OK" "inventory" (s.controller.inventoryOf s.number s.now s.metrics allowedServices)

/-- The service can be reached, its floats and its metrics can be read back, and its inventory is
not too long for a message. -/
structure Serving (float : List Char → Json) (connection : String → Except PyError Unit)
    (exchange : String → Bytes → List (Except ZoneError Bytes)) (s : ZoneService) : Prop where
  connects : connection s.zoneId = .ok ()
  carried : Carried float s (exchange s.zoneId)
  number : ∀ x, Json.Printable float (s.number x)
  metrics : s.metrics.Bounded
  request : Fits (ZoneTransportClient.statusRequest "inventory" s.zoneId)
  response : ∃ allowedServices, s.controller.allowedServices = .ok allowedServices ∧
    Fits (s.inventoryResponse allowedServices)

/-- The first ECU of this name in the zones, with its service. -/
def ownerOf (ecuName : String) : List ZoneService → Option (ZoneService × VehicleTopology.EcuInfo)
  | [] => none
  | s :: services =>
      match s.controller.config.ecus.values.find? fun ecu ↦ ecu.ecuName = ecuName with
      | some ecu => some (s, ecu)
      | none => ownerOf ecuName services

section Services

variable {float : List Char → Json} {connection : String → Except PyError Unit}
  {exchange : String → Bytes → List (Except ZoneError Bytes)} {s : ZoneService}
  {services : List ZoneService} {ecuName : String}

theorem printable_inventoryResponse (hnumber : ∀ x, Json.Printable float (s.number x))
    (hmetrics : s.metrics.Bounded) (allowedServices : List ℤ) :
    Json.Printable float (s.inventoryResponse allowedServices) :=
  s.printable_respond "OK" "inventory" (by decide)
    (ZoneController.printable_inventory hnumber hmetrics allowedServices)

/-- The inventory arrives as the controller makes it. -/
theorem askStatus_inventory (h : Serving float connection exchange s) :
    ∃ allowedServices,
      ZoneTransportClient.askStatus float connection exchange "inventory" s.zoneId =
        .ok (s.controller.inventoryOf s.number s.now s.metrics allowedServices) := by
  obtain ⟨allowedServices, hallowed, hfits⟩ := h.response
  refine ⟨allowedServices, ?_⟩
  have hrequest : Json.Printable float
      (ZoneTransportClient.statusRequest "inventory" s.zoneId) := by
    apply Json.Printable.dict
    · exact (by decide : ["type", "zone_id"].Nodup)
    · simp only [List.forall_mem_cons, List.not_mem_nil, false_implies, implies_true, and_true]
      exact ⟨.str _, .str _⟩
  have hresponse := printable_inventoryResponse h.number h.metrics allowedServices
  have hmessage : s.controller.inventoryMessage s.number s.now s.metrics =
      .ok (s.controller.inventoryOf s.number s.now s.metrics allowedServices) := by
    rw [ZoneController.inventoryMessage, hallowed]
    rfl
  have hreply : s.reply (.ok (ZoneTransportClient.statusRequest "inventory" s.zoneId)) =
      s.inventoryResponse allowedServices := by
    rw [ZoneService.reply]
    simp [ZoneService.dispatch, ZoneTransportClient.statusRequest, Json.getD, Json.lookup, Json.eq,
      bind, Except.bind, hmessage, pure, Except.pure, ZoneService.inventoryResponse]
  have hread := read_exchange h.carried hrequest hresponse (by rw [if_pos h.request, hreply])
  rw [if_pos hfits] at hread
  rw [ZoneTransportClient.askStatus, h.connects]
  simp [ZoneTransportClient.lift, bind, Except.bind, hread, ZoneService.inventoryResponse,
    ZoneService.respond, Json.getD, Json.getItem, Json.lookup, Json.eq]

namespace ZoneAvailabilityGuard

/-- What the zones report of an ECU. -/
def reported (ecuName : String) :
    Option (ZoneService × VehicleTopology.EcuInfo) → Except PyError Json
  | none => .error (.keyError (ecuName ++ " not found in live zone inventory"))
  | some (s, ecu) => .ok (guardedAvailability s.controller s.number s.now ecu)

/-- Induction on the zones: the first one that has the ECU speaks for it. -/
theorem ecuAvailability_inventories (ecuName : String)
    (h : ∀ s ∈ services, Serving float connection exchange s) :
    ∃ inventories,
      ZoneTransportClient.inventory float connection exchange (services.map ZoneService.zoneId) =
        .ok inventories ∧
      ecuAvailability ecuName inventories = reported ecuName (ownerOf ecuName services) := by
  induction services with
  | nil => exact ⟨[], rfl, rfl⟩
  | cons s services ih =>
      rw [List.forall_mem_cons] at h
      obtain ⟨allowedServices, hasked⟩ := askStatus_inventory h.1
      obtain ⟨inventories, hrest, havailability⟩ := ih h.2
      refine ⟨s.controller.inventoryOf s.number s.now s.metrics allowedServices :: inventories,
        ?_, ?_⟩
      · rw [ZoneTransportClient.inventory] at hrest
        rw [ZoneTransportClient.inventory, List.map_cons, List.mapM_cons, hasked, hrest]
        rfl
      · rw [ecuAvailability, availabilityIn_inventoryOf, ownerOf]
        cases s.controller.config.ecus.values.find? fun ecu ↦ ecu.ecuName = ecuName with
        | none => exact havailability
        | some ecu => rfl

theorem mem_of_ownerOf {ecu : VehicleTopology.EcuInfo}
    (h : ownerOf ecuName services = some (s, ecu)) : ecu ∈ s.controller.config.ecus.values := by
  induction services with
  | nil => cases h
  | cons first services ih =>
      rw [ownerOf] at h
      cases hfind : first.controller.config.ecus.values.find? fun ecu ↦ ecu.ecuName = ecuName with
      | none =>
          rw [hfind] at h
          exact ih h
      | some found =>
          rw [hfind] at h
          obtain ⟨rfl, rfl⟩ := Prod.mk.inj (Option.some.inj h)
          exact List.mem_of_find?_eq_some hfind

theorem requireEcuOnline_eq {g : ZoneAvailabilityGuard} (henabled : g.enabled)
    (h : ∀ s ∈ services, Serving float connection exchange s) {ecu : VehicleTopology.EcuInfo}
    (howner : ownerOf ecuName services = some (s, ecu)) :
    g.requireEcuOnline (ZoneTransportClient.inventory float connection exchange
        (services.map ZoneService.zoneId)) ecuName =
      if ZoneController.usable (s.controller.ecuAvailability s.now ecu.canId) then .ok ()
      else .error (.python (.runtimeError ("Zone heartbeat gate rejected " ++ ecuName ++
        ": state=OFFLINE reason=" ++
          ZoneController.healthReason (s.controller.healthState s.now)))) := by
  obtain ⟨inventories, hinventory, havailability⟩ := ecuAvailability_inventories ecuName h
  rw [howner, reported] at havailability
  rw [requireEcuOnline, if_neg (not_not.mpr henabled), hinventory]
  simp only [bind, Except.bind, havailability, requireState_guarded]
  split <;> rfl

end ZoneAvailabilityGuard

end Services

/-! ## Heartbeats and the guard -/

/-- The controller of a service is one that has monitored this history of its channel. -/
structure Monitored (s : ZoneService) (c : ZoneController) (history : List (ℚ × CanMessage)) :
    Prop where
  controller : s.controller = c.monitorHeartbeats history
  fresh : ∀ canId, c.heartbeatLastSeen.get? canId = none
  ordered : (history.map Prod.fst).Pairwise (· ≤ ·)

/-- With the guard enabled and every zone served over its socket, an ECU passes if and only if the
first zone that lists its name either does not monitor heartbeats, or has met a heartbeat frame with
its CAN id within the timeout, or has never met one and started within the grace period; everything
else on the channel is without effect.  Otherwise the guard raises, and names the state of the
zone; and it raises for a name that no zone lists. -/
theorem guard_follows_heartbeats (float : List Char → Json)
    (connection : String → Except PyError Unit)
    (exchange : String → Bytes → List (Except ZoneError Bytes)) (g : ZoneAvailabilityGuard)
    (services : List ZoneService) (ecuName : String) (henabled : g.enabled)
    (hserving : ∀ s ∈ services, Serving float connection exchange s) :
    (∀ s ecu c history, ownerOf ecuName services = some (s, ecu) → Monitored s c history →
      (g.requireEcuOnline (ZoneTransportClient.inventory float connection exchange
          (services.map ZoneService.zoneId)) ecuName = .ok () ↔
        c.options.heartbeatMonitorEnabled = false ∨
        (∃ e ∈ history, isHeartbeat ecu.canId e.2 ∧
          s.now - e.1 ≤ c.options.heartbeatTimeoutSeconds) ∨
        (∀ e ∈ history, ¬ isHeartbeat ecu.canId e.2) ∧
          s.now - c.startedAt < c.options.heartbeatGraceSeconds) ∧
      ∀ e, g.requireEcuOnline (ZoneTransportClient.inventory float connection exchange
          (services.map ZoneService.zoneId)) ecuName = .error e →
        e = .python (.runtimeError ("Zone heartbeat gate rejected " ++ ecuName ++
          ": state=OFFLINE reason=" ++
            ZoneController.healthReason (s.controller.healthState s.now)))) ∧
    (ownerOf ecuName services = none →
      g.requireEcuOnline (ZoneTransportClient.inventory float connection exchange
          (services.map ZoneService.zoneId)) ecuName =
        .error (.python (.keyError (ecuName ++ " not found in live zone inventory")))) := by
  refine ⟨fun s ecu c history howner hmonitored ↦ ?_, fun hnone ↦ ?_⟩
  · rw [ZoneAvailabilityGuard.requireEcuOnline_eq henabled hserving howner]
    have hmem := ZoneAvailabilityGuard.mem_of_ownerOf howner
    obtain ⟨hconfig, hoptions, -⟩ := c.monitorHeartbeats_frame history
    rw [hmonitored.controller] at hmem ⊢
    rw [hconfig] at hmem
    constructor
    · cases hmonitor : c.options.heartbeatMonitorEnabled with
      | false =>
          have husable : ZoneController.usable
              ((c.monitorHeartbeats history).ecuAvailability s.now ecu.canId) := by
            rw [ZoneController.ecuAvailability, hoptions, hmonitor]
            rfl
          rw [if_pos husable]
          exact iff_of_true rfl (Or.inl rfl)
      | true =>
          have husable := c.usable_monitor_iff history s.now hmonitor
            (List.mem_map_of_mem hmem) (hmonitored.fresh ecu.canId) hmonitored.ordered
          rw [← husable]
          simp
    · intro e he
      split at he
      · cases he
      · exact (Except.error.inj he).symm
  · obtain ⟨inventories, hinventory, havailability⟩ :=
      ZoneAvailabilityGuard.ecuAvailability_inventories ecuName hserving
    rw [hnone, ZoneAvailabilityGuard.reported] at havailability
    rw [ZoneAvailabilityGuard.requireEcuOnline, if_neg (not_not.mpr henabled), hinventory]
    simp only [bind, Except.bind, havailability]
    rfl

/-! ### The BCM with traffic on its channel -/

/-- The body zone, with a diagnostic frame on each side of the last heartbeat. -/
def busyHistory : List (ℚ × CanMessage) :=
  [(10, ⟨0x202, [0x40, 0x07]⟩), (99, ⟨0x202, [0x02, 0x3E, 0x00]⟩), (199 / 2, ⟨0x202, [0x40, 0x08]⟩),
    (998 / 10, ⟨0x202, [0x02, 0x7E, 0x00]⟩), (999 / 10, ⟨0x203, [0x40, 0x21]⟩)]

/-- The floats of the inventory and their texts. -/
def floatNumber (x : ℚ) : Json :=
  if x = 3 then .float 3 "3.0" else if x = 5 then .float 5 "5.0"
  else if x = 1 / 2 then .float (1 / 2) "0.5" else .nan

def floatText (text : List Char) : Json :=
  if text = "3.0".toList then .float 3 "3.0" else if text = "5.0".toList then .float 5 "5.0"
  else if text = "0.5".toList then .float (1 / 2) "0.5" else .nan

theorem printable_floatNumber (x : ℚ) : Json.Printable floatText (floatNumber x) := by
  rw [floatNumber]
  split
  · refine .float ⟨rfl, false, 3, ['.', '0'], [], rfl, Or.inr ⟨['0'], rfl, ?_, ?_⟩, Or.inl rfl, ?_⟩
    · exact List.cons_ne_nil _ _
    · exact List.forall_mem_singleton.mpr rfl
    · exact fun h ↦ List.cons_ne_nil _ _ h.1
  · split
    · refine .float ⟨rfl, false, 5, ['.', '0'], [], rfl, Or.inr ⟨['0'], rfl, ?_, ?_⟩, Or.inl rfl, ?_⟩
      · exact List.cons_ne_nil _ _
      · exact List.forall_mem_singleton.mpr rfl
      · exact fun h ↦ List.cons_ne_nil _ _ h.1
    · split
      · refine .float ⟨rfl, false, 0, ['.', '5'], [], rfl, Or.inr ⟨['5'], rfl, ?_, ?_⟩, Or.inl rfl, ?_⟩
        · exact List.cons_ne_nil _ _
        · exact List.forall_mem_singleton.mpr rfl
        · exact fun h ↦ List.cons_ne_nil _ _ h.1
      · exact .nan

def bodyService : ZoneService where
  controller := bodyZone.monitorHeartbeats busyHistory
  now := 100
  deliver _ _ := .error (.timeoutError "no ECU")
  number := floatNumber
  metrics := { heartbeatFrames := 2 }

theorem guard_follows_heartbeats_bcm :
    ZoneAvailabilityGuard.requireEcuOnline { useZonalControllers := "1" }
      (ZoneTransportClient.inventory floatText (fun _ ↦ .ok ())
        (fun _ ↦ slowExchange floatText bodyService) ["body_zone"]) "BCM ECU" = .ok () := by
  obtain ⟨hguard, -⟩ := guard_follows_heartbeats floatText (fun _ ↦ .ok ())
    (fun _ ↦ slowExchange floatText bodyService) { useZonalControllers := "1" } [bodyService]
    "BCM ECU" (by decide) (List.forall_mem_singleton.mpr
      { connects := rfl
        carried := carried_slowExchange _ _
        number := printable_floatNumber
        metrics := by decide
        request := by decide +kernel
        response := ⟨_, rfl, fits_of_dump (printable_inventoryResponse printable_floatNumber
          (by decide) _) (by decide +kernel)⟩ })
  obtain ⟨hiff, -⟩ := hguard bodyService _ bodyZone busyHistory rfl
    ⟨rfl, fun _ ↦ rfl, by decide +kernel⟩
  refine hiff.mpr (Or.inr (Or.inl ⟨(199 / 2, ⟨0x202, [0x40, 0x08]⟩), ?_, rfl, ?_⟩))
  · simp [busyHistory]
  · norm_num [bodyService, bodyZone]

end VehicleOta
