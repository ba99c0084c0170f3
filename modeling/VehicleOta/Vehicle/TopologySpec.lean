import VehicleOta.Vehicle.TopologyLoader

/-!
# A topology without errors

Its zones and ECUs have all their fields, and no two ECUs share a name, an address or a CAN id.
So the registries hold every ECU under its own keys.
-/

namespace VehicleOta

namespace VehicleTopology

/-- The ECUs of all zones. -/
def ecus (t : VehicleTopology) : List EcuEntry := t.zones.flatMap ZoneEntry.ecus

structure WellDeclared (zones : List ZoneEntry) (ecus : List EcuEntry) : Prop where
  zone_complete : ∀ zone ∈ zones,
    zone.zoneId = some zone.id ∧ zone.channel.isSome ∧ zone.servicePort.isSome
  zoneIds : (zones.map ZoneEntry.id).Nodup
  ecu_complete : ∀ ecu ∈ ecus, ecu.ecuName = some ecu.name ∧
    ecu.logicalAddress = some ecu.address ∧ ecu.canId = some ecu.can
  names : (ecus.map EcuEntry.name).Nodup
  addresses : (ecus.map EcuEntry.address).Nodup
  canIds : (ecus.map EcuEntry.can).Nodup

/-- The sets of `validate` hold what it has seen. -/
structure Entered (zones : List ZoneEntry) (ecus : List EcuEntry) (s : ValidationState) : Prop where
  well : WellDeclared zones ecus
  zoneIds : s.zoneIds = zones.map ZoneEntry.id
  names : s.ecuNames = ecus.map EcuEntry.name
  addresses : s.logicalAddresses = ecus.map EcuEntry.address
  canIds : s.canIds = ecus.map EcuEntry.can

/-- As long as no error was found. -/
def Recorded (zones : List ZoneEntry) (ecus : List EcuEntry) (s : ValidationState) : Prop :=
  s.errors = [] → Entered zones ecus s

section Validation

variable {zones : List ZoneEntry} {ecus : List EcuEntry} {s s' : ValidationState}

theorem duplicate_eq_nil {α : Type} [DecidableEq α] {message : String} {value : α} {seen : List α} :
    duplicate message value seen = [] ↔ value ∉ seen := by
  unfold duplicate
  split <;> simp [*]

theorem nodup_map_concat {α β : Type} {f : α → β} {xs : List α} {x : α} (h : (xs.map f).Nodup)
    (hx : f x ∉ xs.map f) : ((xs ++ [x]).map f).Nodup := by
  rw [List.map_append, List.map_singleton]
  exact List.nodup_append.mpr ⟨h, List.nodup_singleton _, fun a ha b hb hab ↦
    hx (List.mem_singleton.mp hb ▸ hab ▸ ha)⟩

theorem recorded_validateEcu {zoneId : String} {ecu : EcuEntry} (h : Recorded zones ecus s)
    (hecu : validateEcu zoneId s ecu = .ok s') : Recorded zones (ecus ++ [ecu]) s' := by
  intro hempty
  unfold validateEcu at hecu
  split at hecu
  · obtain rfl := Except.ok.inj hecu
    exact absurd hempty (by simp)
  · rename_i hname
    obtain ⟨address, haddress, hecu⟩ := bind_eq_ok.mp hecu
    obtain ⟨canId, hcanId, hecu⟩ := bind_eq_ok.mp hecu
    obtain rfl := Except.ok.inj hecu
    simp only [List.append_eq_nil_iff, duplicate_eq_nil] at hempty
    obtain ⟨hold, ⟨hnewName, hnewAddress⟩, hnewCan⟩ := hempty
    have hecuName : ecu.ecuName = some ecu.name := by
      cases hcase : ecu.ecuName with
      | none => exact absurd (by rw [EcuEntry.name, hcase]; rfl) hname
      | some name => rw [EcuEntry.name, hcase]; rfl
    have haddress : ecu.logicalAddress = some address := by
      cases hcase : ecu.logicalAddress with
      | none => rw [hcase] at haddress; cases haddress
      | some value => rw [hcase] at haddress; rw [Except.ok.inj haddress]
    have hcanId : ecu.canId = some canId := by
      cases hcase : ecu.canId with
      | none => rw [hcase] at hcanId; cases hcanId
      | some value => rw [hcase] at hcanId; rw [Except.ok.inj hcanId]
    have haddressEq : ecu.address = address := by rw [EcuEntry.address, haddress]; rfl
    have hcanEq : ecu.can = canId := by rw [EcuEntry.can, hcanId]; rfl
    have hentered := h hold
    rw [hentered.names] at hnewName
    rw [hentered.addresses, ← haddressEq] at hnewAddress
    rw [hentered.canIds, ← hcanEq] at hnewCan
    refine ⟨⟨hentered.well.zone_complete, hentered.well.zoneIds, fun e he ↦ ?_,
      nodup_map_concat hentered.well.names hnewName,
      nodup_map_concat hentered.well.addresses hnewAddress,
      nodup_map_concat hentered.well.canIds hnewCan⟩, hentered.zoneIds, ?_, ?_, ?_⟩
    · rcases List.mem_append.mp he with he | he
      · exact hentered.well.ecu_complete e he
      · rw [List.mem_singleton.mp he, haddressEq, hcanEq]
        exact ⟨hecuName, haddress, hcanId⟩
    · simp [hentered.names]
    · simp [hentered.addresses, haddressEq]
    · simp [hentered.canIds, hcanEq]

/-- The state in front of the ECUs of a zone. -/
def enterZone (s : ValidationState) (zone : ZoneEntry) : ValidationState :=
  { s with
    errors := s.errors ++ zoneErrors s zone
    zoneIds := s.zoneIds ++ [zone.id]
    servicePorts := s.servicePorts ++ [zone.servicePort.getD 0]
    canChannels := s.canChannels ++ [zone.channel.getD ""] }

theorem zoneErrors_eq_nil_iff {zone : ZoneEntry} : zoneErrors s zone = [] ↔
    (zone.id ≠ "" ∧ zone.id ∉ s.zoneIds) ∧
    (0 < zone.servicePort.getD 0 ∧ zone.servicePort.getD 0 ∉ s.servicePorts) ∧
    zone.channel.getD "" ≠ "" ∧ zone.channel.getD "" ∉ s.canChannels := by
  unfold zoneErrors
  dsimp only
  rw [List.append_eq_nil_iff, List.append_eq_nil_iff, and_assoc]
  refine and_congr ?_ (and_congr ?_ ?_)
  · by_cases hid : zone.id = ""
    · simp [hid]
    · simp [hid, duplicate_eq_nil]
  · by_cases hport : zone.servicePort.getD 0 ≤ 0
    · simp [hport]
    · rw [if_neg hport, duplicate_eq_nil]
      exact (and_iff_right (not_le.mp hport)).symm
  · by_cases hchannel : zone.channel.getD "" = ""
    · simp [hchannel]
    · simp [hchannel, duplicate_eq_nil]

theorem recorded_enterZone {zone : ZoneEntry} (h : Recorded zones ecus s) :
    Recorded (zones ++ [zone]) ecus (enterZone s zone) := by
  intro hempty
  obtain ⟨hold, hnew⟩ := List.append_eq_nil_iff.mp hempty
  have hentered := h hold
  obtain ⟨⟨hidNonempty, hid⟩, ⟨hport, -⟩, hchannel, -⟩ := zoneErrors_eq_nil_iff.mp hnew
  rw [hentered.zoneIds] at hid
  have hzoneId : zone.zoneId = some zone.id := by
    cases hcase : zone.zoneId with
    | none => exact absurd (by rw [ZoneEntry.id, hcase]; rfl) hidNonempty
    | some value => rw [ZoneEntry.id, hcase]; rfl
  have hsomePort : zone.servicePort.isSome := by
    cases hcase : zone.servicePort with
    | none => simp [hcase] at hport
    | some port => rfl
  have hsomeChannel : zone.channel.isSome := by
    cases hcase : zone.channel with
    | none => simp [hcase] at hchannel
    | some channel => rfl
  refine ⟨⟨fun z hz ↦ ?_, nodup_map_concat hentered.well.zoneIds hid, hentered.well.ecu_complete,
    hentered.well.names, hentered.well.addresses, hentered.well.canIds⟩, ?_, hentered.names,
    hentered.addresses, hentered.canIds⟩
  · rcases List.mem_append.mp hz with hz | hz
    · exact hentered.well.zone_complete z hz
    · rw [List.mem_singleton.mp hz]
      exact ⟨hzoneId, hsomeChannel, hsomePort⟩
  · simp [enterZone, hentered.zoneIds]

theorem recorded_validateZone {zone : ZoneEntry} (h : Recorded zones ecus s)
    (hzone : validateZone s zone = .ok s') :
    Recorded (zones ++ [zone]) (ecus ++ zone.ecus) s' := by
  have hstep : ∀ done s ecu s', Recorded (zones ++ [zone]) (ecus ++ done) s →
      validateEcu zone.id s ecu = .ok s' →
      Recorded (zones ++ [zone]) (ecus ++ (done ++ [ecu])) s' := by
    intro done s ecu s' hdone hecu
    rw [← List.append_assoc]
    exact recorded_validateEcu hdone hecu
  have hstart : Recorded (zones ++ [zone]) (ecus ++ []) (enterZone s zone) := by
    rw [List.append_nil]
    exact recorded_enterZone h
  exact @foldlM_invariant _ _ _ (fun done s ↦ Recorded (zones ++ [zone]) (ecus ++ done) s) hstep
    zone.ecus [] _ s' hstart hzone

/-- A topology without errors is well declared. -/
theorem wellDeclared_of_validate {t : VehicleTopology} (h : t.validate = .ok []) :
    WellDeclared t.zones t.ecus := by
  rw [validate] at h
  obtain ⟨s, hloop, h⟩ := bind_eq_ok.mp h
  have hstep : ∀ done s zone s', Recorded done (done.flatMap ZoneEntry.ecus) s →
      validateZone s zone = .ok s' →
      Recorded (done ++ [zone]) ((done ++ [zone]).flatMap ZoneEntry.ecus) s' := by
    intro done s zone s' hdone hzone
    rw [List.flatMap_append, List.flatMap_singleton]
    exact recorded_validateZone hdone hzone
  have hinitial : Recorded [] [] {} := fun _ ↦
    ⟨⟨by simp, by simp, by simp, by simp, by simp, by simp⟩, rfl, rfl, rfl, rfl⟩
  have hrecorded := @foldlM_invariant _ _ _
    (fun done s ↦ Recorded done (done.flatMap ZoneEntry.ecus) s) hstep t.zones [] {} s hinitial hloop
  cases hcycles : dependencyCycleErrors s.dependencies with
  | none =>
      rw [hcycles] at h
      cases h
  | some cycleErrors =>
      rw [hcycles] at h
      have hempty := Except.ok.inj h
      simp only [List.append_eq_nil_iff] at hempty
      exact (hrecorded hempty.1.1).well

end Validation

/-! ## The registries of a well declared topology -/

section Registries

variable {t : VehicleTopology} {zone : ZoneEntry} {ecu : EcuEntry}

/-- The entry of a zone's registry for an ECU with all its fields. -/
def declared (ecu : EcuEntry) : ℤ × EcuInfo :=
  (ecu.address, {
    ecuName := ecu.name
    canId := ecu.can
    criticality := ecu.criticality
    dependencies := ecu.dependencies
    onUnavailable := ecu.onUnavailable
    onDependencyFailed := ecu.onDependencyFailed })

/-- The configuration of a zone with all its fields. -/
def configured (t : VehicleTopology) (zone : ZoneEntry) : ZoneConfig where
  zoneId := zone.id
  displayName := zone.displayName.getD ""
  canChannel := zone.channel.getD ""
  servicePort := zone.servicePort.getD 0
  defaultHealth := zone.defaultHealth
  programmingAllowed := zone.programmingAllowed
  allowedServices := zone.allowedServices.getD t.allowedUdsServices
  ecus := Dict.ofPairs (zone.ecus.map declared)

/-- Every zone has the name to display, which `validate` does not ask for. -/
def DisplayNamed (t : VehicleTopology) : Prop := ∀ zone ∈ t.zones, zone.displayName.isSome

theorem mem_ecus_of_mem (hzone : zone ∈ t.zones) (hecu : ecu ∈ zone.ecus) : ecu ∈ t.ecus :=
  List.mem_flatMap.mpr ⟨zone, hzone, hecu⟩

theorem ecuInfo_eq (h : WellDeclared t.zones t.ecus) (hecu : ecu ∈ t.ecus) :
    ecuInfo ecu = .ok (declared ecu) := by
  obtain ⟨hname, haddress, hcan⟩ := h.ecu_complete ecu hecu
  rw [ecuInfo, haddress, hname, hcan]
  rfl

theorem zoneConfig_eq (h : WellDeclared t.zones t.ecus) (hzone : zone ∈ t.zones)
    (hdisplay : zone.displayName.isSome) : t.zoneConfig zone = .ok (zone.id, t.configured zone) := by
  obtain ⟨hid, hchannel, hport⟩ := h.zone_complete zone hzone
  obtain ⟨displayName, hdisplay⟩ := Option.isSome_iff_exists.mp hdisplay
  obtain ⟨channel, hchannel⟩ := Option.isSome_iff_exists.mp hchannel
  obtain ⟨port, hport⟩ := Option.isSome_iff_exists.mp hport
  have hecus : zone.ecus.mapM ecuInfo = .ok (zone.ecus.map declared) :=
    mapM_eq_ok_map fun ecu hecu ↦ ecuInfo_eq h (mem_ecus_of_mem hzone hecu)
  rw [zoneConfig, hecus, hid, hdisplay, hchannel, hport, configured, hdisplay, hchannel, hport]
  rfl

theorem buildZoneRegistry_eq (h : WellDeclared t.zones t.ecus) (hdisplay : t.DisplayNamed) :
    t.buildZoneRegistry =
      .ok (Dict.ofPairs (t.zones.map fun zone ↦ (zone.id, t.configured zone))) := by
  have hzones : t.zones.mapM t.zoneConfig =
      .ok (t.zones.map fun zone ↦ (zone.id, t.configured zone)) :=
    mapM_eq_ok_map fun zone hzone ↦ zoneConfig_eq h hzone (hdisplay zone hzone)
  rw [buildZoneRegistry, hzones]
  rfl

theorem displayNamed_of_registry {registry : Dict String ZoneConfig}
    (h : t.buildZoneRegistry = .ok registry) : t.DisplayNamed := by
  intro zone hzone
  obtain ⟨entries, hentries, -⟩ := bind_eq_ok.mp h
  obtain ⟨entry, hentry⟩ := exists_of_mapM_eq_ok hentries hzone
  obtain ⟨_, -, hentry⟩ := bind_eq_ok.mp hentry
  obtain ⟨_, -, hentry⟩ := bind_eq_ok.mp hentry
  obtain ⟨displayName, hdisplay, -⟩ := bind_eq_ok.mp hentry
  cases hcase : zone.displayName with
  | none =>
      rw [hcase] at hdisplay
      cases hdisplay
  | some displayName => rfl

theorem entries_zoneRegistry (h : WellDeclared t.zones t.ecus) :
    (Dict.ofPairs (t.zones.map fun zone ↦ (zone.id, t.configured zone))).entries =
      t.zones.map fun zone ↦ (zone.id, t.configured zone) := by
  refine Dict.ofPairs_entries ?_
  rw [List.map_map]
  exact h.zoneIds

theorem values_zoneRegistry (h : WellDeclared t.zones t.ecus) :
    (Dict.ofPairs (t.zones.map fun zone ↦ (zone.id, t.configured zone))).values =
      t.zones.map t.configured := by
  rw [Dict.values, entries_zoneRegistry h, List.map_map]
  rfl

theorem sublist_ecus (hzone : zone ∈ t.zones) : zone.ecus.Sublist t.ecus :=
  List.sublist_flatten_of_mem (List.mem_map_of_mem hzone)

theorem entries_configured (h : WellDeclared t.zones t.ecus) (hzone : zone ∈ t.zones) :
    (t.configured zone).ecus.entries = zone.ecus.map declared := by
  rw [configured, Dict.ofPairs_entries]
  rw [List.map_map]
  exact h.addresses.sublist ((sublist_ecus hzone).map EcuEntry.address)

/-- The registry entry of an ECU with all its fields. -/
def registered (t : VehicleTopology) (zone : ZoneEntry) (ecu : EcuEntry) : String × RegistryEntry :=
  registryEntry (t.configured zone) (declared ecu)

theorem ecuRegistry_eq (h : WellDeclared t.zones t.ecus) (hdisplay : t.DisplayNamed) :
    ∃ registry, t.ecuRegistry = .ok registry ∧
      registry.entries = t.zones.flatMap fun zone ↦ zone.ecus.map (t.registered zone) := by
  refine ⟨_, by rw [ecuRegistry, buildZoneRegistry_eq h hdisplay]; rfl, ?_⟩
  have hpairs : ((Dict.ofPairs (t.zones.map fun zone ↦ (zone.id, t.configured zone))).values.flatMap
      fun zone ↦ zone.ecus.entries.map (registryEntry zone)) =
      t.zones.flatMap fun zone ↦ zone.ecus.map (t.registered zone) := by
    rw [values_zoneRegistry h, List.flatMap_map]
    refine List.flatMap_congr fun zone hzone ↦ ?_
    rw [entries_configured h hzone, List.map_map]
    rfl
  rw [hpairs, Dict.ofPairs_entries]
  rw [List.map_flatMap]
  simp only [List.map_map]
  have hnames := h.names
  rw [VehicleTopology.ecus, List.map_flatMap] at hnames
  exact hnames

/-- The dependencies under a CAN id are those of its only ECU. -/
theorem dependencyForCanId_eq (h : WellDeclared t.zones t.ecus) (hdisplay : t.DisplayNamed)
    (hecu : ecu ∈ t.ecus) : t.dependencyForCanId ecu.can = .ok ecu.dependencies := by
  obtain ⟨registry, hregistry, hentries⟩ := ecuRegistry_eq h hdisplay
  obtain ⟨zone, hzone, hin⟩ := List.mem_flatMap.mp hecu
  have hvalue : (t.registered zone ecu).2 ∈ registry.values := by
    rw [Dict.values, hentries]
    exact List.mem_map_of_mem (List.mem_flatMap.mpr ⟨zone, hzone, List.mem_map_of_mem hin⟩)
  cases hfind : registry.values.find? fun entry ↦ entry.canId = ecu.can with
  | none =>
      have hnone := List.find?_eq_none.mp hfind _ hvalue
      exact absurd (decide_eq_true rfl) hnone
  | some entry =>
      have hcan : entry.canId = ecu.can := by simpa using List.find?_some hfind
      have hmem := List.mem_of_find?_eq_some hfind
      rw [Dict.values, hentries] at hmem
      obtain ⟨pair, hpair, rfl⟩ := List.mem_map.mp hmem
      obtain ⟨zone', hzone', hpair⟩ := List.mem_flatMap.mp hpair
      obtain ⟨ecu', hecu', rfl⟩ := List.mem_map.mp hpair
      have hsame : ecu' = ecu := List.inj_on_of_nodup_map h.canIds (mem_ecus_of_mem hzone' hecu') hecu
        hcan
      simp only [dependencyForCanId, hregistry, bind, Except.bind, hfind, hsame]
      rfl

end Registries

theorem validate_eq_of_toOption {t : VehicleTopology} (h : t.validate.toOption = some []) :
    t.validate = .ok [] := by
  cases hcase : t.validate with
  | error err =>
      rw [hcase] at h
      cases h
  | ok errors =>
      rw [hcase] at h
      rw [Option.some.inj h]

end VehicleTopology

/-! ## The two vehicles of the demo -/

def demoEntry (ecuName : String) (logicalAddress canId : ℤ) (dependencies : List String) :
    EcuEntry :=
  { ecuName := some ecuName, logicalAddress := some logicalAddress, canId := some canId, dependencies }

def demoZone (zoneId displayName channel : String) (servicePort : ℤ) (ecus : List EcuEntry) :
    ZoneEntry where
  zoneId := some zoneId
  displayName := some displayName
  channel := some channel
  servicePort := some servicePort
  defaultHealth := "AUTO"
  ecus := ecus

def demoServices : List ℤ := [0x10, 0x11, 0x22, 0x27, 0x31, 0x34, 0x36, 0x37, 0x3E]

/-- `vehicle/topology.json` -/
def demoTopology : VehicleTopology where
  allowedUdsServices := demoServices
  zones := [
    demoZone "gateway_zone" "Gateway Zone Controller" "vcan_gate" 15001 [
      demoEntry "Gateway ECU" 0x1001 0x201 []],
    demoZone "body_zone" "Body Zone Controller" "vcan_bcm" 15002 [
      demoEntry "BCM ECU" 0x1002 0x202 ["Gateway ECU"]],
    demoZone "cluster_zone" "Cluster Zone Controller" "vcan_clus" 15003 [
      demoEntry "Cluster ECU" 0x1003 0x203 ["BCM ECU"]]]

/-- `vehicle/topology.midsize_demo.json` -/
def midsizeTopology : VehicleTopology where
  allowedUdsServices := demoServices
  zones := [
    demoZone "gateway_zone" "Gateway Zone Controller" "vcan_gate" 15001 [
      demoEntry "Gateway ECU" 0x1001 0x201 [],
      demoEntry "TCU Proxy ECU" 0x1011 0x211 ["Gateway ECU"]],
    demoZone "body_zone" "Body Zone Controller" "vcan_bcm" 15002 [
      demoEntry "BCM ECU" 0x1002 0x202 ["Gateway ECU"],
      demoEntry "Door FL ECU" 0x1012 0x212 ["BCM ECU"]],
    demoZone "cockpit_zone" "Cockpit Zone Controller" "vcan_clus" 15003 [
      demoEntry "Cluster ECU" 0x1003 0x203 ["Gateway ECU", "BCM ECU"],
      demoEntry "Infotainment ECU" 0x1013 0x213 ["Gateway ECU"],
      demoEntry "HVAC ECU" 0x1014 0x214 ["BCM ECU"]]]

end VehicleOta
