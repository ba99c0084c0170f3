import VehicleOta.Vehicle.TopologySpec

/-!
# Routes through a topology without errors

`zone_for_logical_address` of `zones/zone_registry.py` takes the first zone that has the address.
In a topology without errors there is only one, and every lookup returns the ECU that was asked
for.
-/

namespace VehicleOta

namespace VehicleTopology

/-- `zone_for_logical_address` -/
def zoneForLogicalAddress (zoneRegistry : Dict String ZoneConfig) (logicalAddress : ℤ) :
    Option (String × ZoneConfig) :=
  zoneRegistry.entries.find? fun entry ↦ (entry.2.ecus.get? logicalAddress).isSome

section Routes

variable {t : VehicleTopology} {zone other : ZoneEntry} {ecu : EcuEntry}

/-- Two zones share no address. -/
theorem eq_of_address (h : WellDeclared t.zones t.ecus) (hzone : zone ∈ t.zones)
    (hother : other ∈ t.zones) {address : ℤ} (haddress : address ∈ zone.ecus.map EcuEntry.address)
    (hshared : address ∈ other.ecus.map EcuEntry.address) : zone = other := by
  have hnodup := h.addresses
  rw [ecus, List.map_flatMap, List.nodup_flatMap] at hnodup
  by_contra hne
  have hsymm : Std.Symm (Function.onFun List.Disjoint
      fun zone : ZoneEntry ↦ zone.ecus.map EcuEntry.address) := ⟨fun _ _ h ↦ h.symm⟩
  have hdisjoint := hnodup.2.forall hzone hother hne
  exact hdisjoint haddress hshared

theorem get?_configured (h : WellDeclared t.zones t.ecus) (hzone : zone ∈ t.zones)
    (hecu : ecu ∈ zone.ecus) :
    (t.configured zone).ecus.get? ecu.address = some (declared ecu).2 := by
  rw [Dict.get?_eq_some_iff, entries_configured h hzone]
  exact List.mem_map_of_mem hecu

theorem mem_addresses_of_get? (h : WellDeclared t.zones t.ecus) (hzone : zone ∈ t.zones)
    {address : ℤ} (hget : ((t.configured zone).ecus.get? address).isSome) :
    address ∈ zone.ecus.map EcuEntry.address := by
  rw [Dict.isSome_get?, Dict.keys, entries_configured h hzone, List.map_map] at hget
  exact hget

/-- The route to an address is the zone that declares it. -/
theorem zoneForLogicalAddress_eq (h : WellDeclared t.zones t.ecus)
    {registry : Dict String ZoneConfig}
    (hentries : registry.entries = t.zones.map fun zone ↦ (zone.id, t.configured zone))
    (hzone : zone ∈ t.zones) (hecu : ecu ∈ zone.ecus) :
    zoneForLogicalAddress registry ecu.address = some (zone.id, t.configured zone) := by
  have hmem : (zone.id, t.configured zone) ∈ registry.entries := by
    rw [hentries]
    exact List.mem_map_of_mem hzone
  have hget := get?_configured h hzone hecu
  cases hfind : zoneForLogicalAddress registry ecu.address with
  | none =>
      have hnone := List.find?_eq_none.mp hfind _ hmem
      rw [hget] at hnone
      exact absurd rfl hnone
  | some entry =>
      have hin := List.mem_of_find?_eq_some hfind
      have hfound := List.find?_some hfind
      rw [hentries] at hin
      obtain ⟨other, hother, rfl⟩ := List.mem_map.mp hin
      have hsame : zone = other := eq_of_address h hzone hother (List.mem_map_of_mem hecu)
        (mem_addresses_of_get? h hother hfound)
      rw [hsame]

theorem nodup_map_some {α : Type} {f : EcuEntry → α} {ecus : List EcuEntry}
    (h : (ecus.map f).Nodup) : (ecus.map fun ecu ↦ some (f ecu)).Nodup := by
  have hsome := h.map (Option.some_injective α)
  rwa [List.map_map] at hsome

theorem get?_ecuRegistry {registry : Dict String RegistryEntry}
    (hentries : registry.entries = t.zones.flatMap fun zone ↦ zone.ecus.map (t.registered zone))
    (hzone : zone ∈ t.zones) (hecu : ecu ∈ zone.ecus) :
    registry.get? ecu.name = some (t.registered zone ecu).2 := by
  rw [Dict.get?_eq_some_iff, hentries]
  exact List.mem_flatMap.mpr ⟨zone, hzone, List.mem_map.mpr ⟨ecu, hecu, rfl⟩⟩

end Routes

/-- For every topology without errors whose zone registry can be built: the registries hold every
declared ECU with its own name, address, CAN id, zone and channel, the lookups by address and by
CAN id find it, no two ECUs share a key, and no entry is lost. -/
theorem validated_topology_routes (t : VehicleTopology) (zoneRegistry : Dict String ZoneConfig)
    (hvalid : t.validate = .ok []) (hbuild : t.buildZoneRegistry = .ok zoneRegistry) :
    ∃ registry, t.ecuRegistry = .ok registry ∧
      (∀ zone ∈ t.zones, ∀ ecu ∈ zone.ecus, ∃ zoneId channel name address canId entry config info,
        zone.zoneId = some zoneId ∧ zone.channel = some channel ∧ ecu.ecuName = some name ∧
        ecu.logicalAddress = some address ∧ ecu.canId = some canId ∧
        (registry.get? name = some entry ∧ entry.logicalAddress = address ∧ entry.canId = canId ∧
          entry.zoneId = zoneId ∧ entry.canChannel = channel) ∧
        (zoneForLogicalAddress zoneRegistry address = some (zoneId, config) ∧
          config.zoneId = zoneId ∧ config.canChannel = channel ∧
          config.ecus.get? address = some info ∧ info.ecuName = name ∧ info.canId = canId ∧
          info.dependencies = ecu.dependencies) ∧
        t.dependencyForCanId canId = .ok ecu.dependencies) ∧
      (t.ecus.map EcuEntry.ecuName).Nodup ∧ (t.ecus.map EcuEntry.logicalAddress).Nodup ∧
      (t.ecus.map EcuEntry.canId).Nodup ∧
      registry.keys.length = t.ecus.length ∧
      (zoneRegistry.values.flatMap fun config ↦ config.ecus.keys).length = t.ecus.length := by
  have hwell := wellDeclared_of_validate hvalid
  have hdisplay := displayNamed_of_registry hbuild
  obtain ⟨registry, hregistry, hentries⟩ := ecuRegistry_eq hwell hdisplay
  have hzones := entries_zoneRegistry hwell
  rw [buildZoneRegistry_eq hwell hdisplay] at hbuild
  obtain rfl := Except.ok.inj hbuild
  refine ⟨registry, hregistry, fun zone hzone ecu hecu ↦ ?_, ?_, ?_, ?_, ?_, ?_⟩
  · obtain ⟨hid, hchannel, -⟩ := hwell.zone_complete zone hzone
    obtain ⟨channel, hchannel⟩ := Option.isSome_iff_exists.mp hchannel
    obtain ⟨hname, haddress, hcan⟩ := hwell.ecu_complete ecu (mem_ecus_of_mem hzone hecu)
    have hchannelEq : (t.configured zone).canChannel = channel := by
      rw [configured, hchannel, Option.getD_some]
    refine ⟨zone.id, channel, ecu.name, ecu.address, ecu.can, (t.registered zone ecu).2,
      t.configured zone, (declared ecu).2, hid, hchannel, hname, haddress, hcan,
      ⟨get?_ecuRegistry hentries hzone hecu, rfl, rfl, rfl, hchannelEq⟩,
      ⟨zoneForLogicalAddress_eq hwell hzones hzone hecu, rfl, hchannelEq,
        get?_configured hwell hzone hecu, rfl, rfl, rfl⟩, ?_⟩
    exact dependencyForCanId_eq hwell hdisplay (mem_ecus_of_mem hzone hecu)
  · rw [List.map_congr_left fun ecu hecu ↦ (hwell.ecu_complete ecu hecu).1]
    exact nodup_map_some hwell.names
  · rw [List.map_congr_left fun ecu hecu ↦ (hwell.ecu_complete ecu hecu).2.1]
    exact nodup_map_some hwell.addresses
  · rw [List.map_congr_left fun ecu hecu ↦ (hwell.ecu_complete ecu hecu).2.2]
    exact nodup_map_some hwell.canIds
  · rw [Dict.keys, List.length_map, hentries, ecus, List.length_flatMap, List.length_flatMap]
    simp only [List.length_map]
  · rw [values_zoneRegistry hwell, List.flatMap_map, ecus, List.length_flatMap, List.length_flatMap]
    congr 1
    refine List.map_congr_left fun zone hzone ↦ ?_
    rw [Dict.keys, List.length_map, entries_configured hwell hzone, List.length_map]

/-- The lookups in the topology of the demo vehicle. -/
theorem validated_topology_routes_demo : ∃ registry zoneRegistry,
    demoTopology.ecuRegistry = .ok registry ∧ demoTopology.buildZoneRegistry = .ok zoneRegistry ∧
      registry.keys.length = 3 := by
  have hvalid : demoTopology.validate = .ok [] := validate_eq_of_toOption (by decide +kernel)
  have hdisplay : demoTopology.DisplayNamed := by
    intro zone hzone
    simp only [demoTopology, List.mem_cons, List.not_mem_nil, or_false] at hzone
    rcases hzone with rfl | rfl | rfl <;> rfl
  have hbuild := buildZoneRegistry_eq (wellDeclared_of_validate hvalid) hdisplay
  obtain ⟨registry, hregistry, -, -, -, -, hlength, -⟩ :=
    validated_topology_routes demoTopology _ hvalid hbuild
  exact ⟨registry, _, hregistry, hbuild, hlength⟩

end VehicleTopology

end VehicleOta
