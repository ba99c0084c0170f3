import VehicleOta.Vehicle.CycleDetectors
import VehicleOta.Vehicle.TopologySpec

/-!
# What a topology without errors is

`validate` returns no error if and only if zones and ECUs have all their fields, no two of them
share a key, every dependency is declared, and the dependencies have no cycle.  Neither the order
of the ECUs nor the zone that an ECU belongs to plays a part.
-/

namespace VehicleOta

open KahnLogic Tcu

namespace ZoneEntry

/-! The fields of a zone that has them. -/

def port (zone : ZoneEntry) : ℤ := zone.servicePort.getD 0

def channelName (zone : ZoneEntry) : String := zone.channel.getD ""

/-- The zone without its ECUs. -/
def stripped (zone : ZoneEntry) : ZoneEntry := { zone with ecus := [] }

end ZoneEntry

namespace VehicleTopology

/-- Zones and ECUs with all their fields and keys of their own. -/
structure Unambiguous (zones : List ZoneEntry) (ecus : List EcuEntry) : Prop extends
    WellDeclared zones ecus where
  zoneId_ne : ∀ zone ∈ zones, zone.id ≠ ""
  port_pos : ∀ zone ∈ zones, 0 < zone.port
  ports : (zones.map ZoneEntry.port).Nodup
  channel_ne : ∀ zone ∈ zones, zone.channelName ≠ ""
  channels : (zones.map ZoneEntry.channelName).Nodup
  name_ne : ∀ ecu ∈ ecus, ecu.name ≠ ""

/-- `d` is a dependency of the ECU `n`. -/
def EcuDependency (ecus : List EcuEntry) (d n : String) : Prop :=
  ∃ ecu ∈ ecus, ecu.name = n ∧ d ∈ ecu.dependencies

structure Valid (zones : List ZoneEntry) (ecus : List EcuEntry) : Prop extends
    Unambiguous zones ecus where
  known : ∀ ecu ∈ ecus, ∀ d ∈ ecu.dependencies, d ∈ ecus.map EcuEntry.name
  acyclic : Acyclic (EcuDependency ecus)

section Transfer

variable {zones zones' : List ZoneEntry} {ecus ecus' : List EcuEntry}

/-- Zones may be left out, and ECUs be left out and moved. -/
theorem Unambiguous.transfer (h : Unambiguous zones ecus)
    (hzones : (zones'.map ZoneEntry.stripped).Sublist (zones.map ZoneEntry.stripped))
    (hecus : ecus'.Subperm ecus) : Unambiguous zones' ecus' := by
  have hzone : ∀ zone ∈ zones', ∃ original ∈ zones, original.stripped = zone.stripped :=
    fun zone hzone ↦ List.mem_map.mp (hzones.subset (List.mem_map_of_mem hzone))
  have hmap : ∀ {β : Type} (f : ZoneEntry → β), (∀ zone, f zone.stripped = f zone) →
      (zones.map f).Nodup → (zones'.map f).Nodup := by
    intro β f hf hnodup
    have hstripped : ∀ zs : List ZoneEntry, (zs.map ZoneEntry.stripped).map f = zs.map f := by
      intro zs
      rw [List.map_map]
      exact List.map_congr_left fun zone _ ↦ hf zone
    rw [← hstripped] at hnodup ⊢
    exact hnodup.sublist (hzones.map f)
  have hnodup : ∀ {β : Type} (f : EcuEntry → β), (ecus.map f).Nodup → (ecus'.map f).Nodup := by
    intro β f hf
    obtain ⟨between, hperm, hsub⟩ := hecus
    rw [← (hperm.map f).nodup_iff]
    exact hf.sublist (hsub.map f)
  refine ⟨⟨fun zone hz ↦ ?_, hmap ZoneEntry.id (fun _ ↦ rfl) h.zoneIds,
    fun ecu he ↦ h.ecu_complete ecu (hecus.subset he), hnodup _ h.names, hnodup _ h.addresses,
    hnodup _ h.canIds⟩, fun zone hz ↦ ?_, fun zone hz ↦ ?_,
    hmap ZoneEntry.port (fun _ ↦ rfl) h.ports, fun zone hz ↦ ?_,
    hmap ZoneEntry.channelName (fun _ ↦ rfl) h.channels,
    fun ecu he ↦ h.name_ne ecu (hecus.subset he)⟩
  all_goals obtain ⟨original, horiginal, heq⟩ := hzone zone hz
  · have hcomplete := h.zone_complete original horiginal
    have hcomplete' : original.stripped.zoneId = some original.stripped.id ∧
      original.stripped.channel.isSome ∧ original.stripped.servicePort.isSome := hcomplete
    rw [heq] at hcomplete'
    exact hcomplete'
  · have hne : original.stripped.id ≠ "" := h.zoneId_ne original horiginal
    rw [heq] at hne
    exact hne
  · have hpos : 0 < original.stripped.port := h.port_pos original horiginal
    rw [heq] at hpos
    exact hpos
  · have hne : original.stripped.channelName ≠ "" := h.channel_ne original horiginal
    rw [heq] at hne
    exact hne

/-- Validity does not depend on the order of the ECUs, and it is kept when zones are left out. -/
theorem Valid.transfer (h : Valid zones ecus)
    (hzones : (zones'.map ZoneEntry.stripped).Sublist (zones.map ZoneEntry.stripped))
    (hecus : ecus'.Perm ecus) : Valid zones' ecus' where
  toUnambiguous := h.toUnambiguous.transfer hzones hecus.subperm
  known ecu he d hd := by
    rw [(hecus.map EcuEntry.name).mem_iff]
    exact h.known ecu (hecus.mem_iff.mp he) d hd
  acyclic := by
    refine h.acyclic.mono fun d n hdn ↦ ?_
    obtain ⟨ecu, he, hecu⟩ := hdn
    exact ⟨ecu, hecus.mem_iff.mp he, hecu⟩

end Transfer

/-! ## The loops of `validate` -/

/-- The state of the loops behind zones and ECUs without errors. -/
structure Checked (zones : List ZoneEntry) (ecus : List EcuEntry) (s : ValidationState) : Prop
    extends Entered zones ecus s where
  unambiguous : Unambiguous zones ecus
  servicePorts : s.servicePorts = zones.map ZoneEntry.port
  canChannels : s.canChannels = zones.map ZoneEntry.channelName
  dependencies : s.dependencies.entries = ecus.map fun ecu ↦ (ecu.name, ecu.dependencies)

section Loops

variable {zones : List ZoneEntry} {ecus : List EcuEntry} {s s' : ValidationState}

theorem checked_initial : Checked [] [] {} where
  well := ⟨by simp, by simp, by simp, by simp, by simp, by simp⟩
  zoneIds := rfl
  names := rfl
  addresses := rfl
  canIds := rfl
  unambiguous := ⟨⟨by simp, by simp, by simp, by simp, by simp, by simp⟩, by simp, by simp, by simp,
    by simp, by simp, by simp⟩
  servicePorts := rfl
  canChannels := rfl
  dependencies := rfl

theorem errors_validateEcu {zoneId : String} {ecu : EcuEntry}
    (h : validateEcu zoneId s ecu = .ok s') : s.errors <+: s'.errors := by
  unfold validateEcu at h
  split at h
  · obtain rfl := Except.ok.inj h
    exact List.prefix_append _ _
  · obtain ⟨address, -, h⟩ := bind_eq_ok.mp h
    obtain ⟨canId, -, h⟩ := bind_eq_ok.mp h
    obtain rfl := Except.ok.inj h
    exact List.prefix_append _ _

/-- An ECU that adds no error. -/
theorem checked_validateEcu {zoneId : String} {ecu : EcuEntry}
    (h : s.errors = [] → Checked zones ecus s) (hecu : validateEcu zoneId s ecu = .ok s')
    (hnone : s'.errors = []) : Checked zones (ecus ++ [ecu]) s' := by
  have hold : s.errors = [] := by
    have hprefix := errors_validateEcu hecu
    rwa [hnone, List.prefix_nil] at hprefix
  have hchecked := h hold
  have hentered := recorded_validateEcu (fun _ ↦ hchecked.toEntered) hecu hnone
  unfold validateEcu at hecu
  split at hecu
  · obtain rfl := Except.ok.inj hecu
    exact absurd hnone (by simp)
  · rename_i hname
    obtain ⟨address, haddress, hecu⟩ := bind_eq_ok.mp hecu
    obtain ⟨canId, hcanId, hecu⟩ := bind_eq_ok.mp hecu
    obtain rfl := Except.ok.inj hecu
    refine ⟨hentered, ⟨hentered.well, hchecked.unambiguous.zoneId_ne, hchecked.unambiguous.port_pos,
      hchecked.unambiguous.ports, hchecked.unambiguous.channel_ne, hchecked.unambiguous.channels,
      fun e he ↦ ?_⟩, hchecked.servicePorts, hchecked.canChannels, ?_⟩
    · rcases List.mem_append.mp he with he | he
      · exact hchecked.unambiguous.name_ne e he
      · rw [List.mem_singleton.mp he]
        exact hname
    · have hnew : ecu.name ∉ s.dependencies.keys := by
        have hnodup := hentered.well.names
        rw [List.map_append, List.map_singleton] at hnodup
        rw [Dict.keys, hchecked.dependencies, List.map_map]
        exact fun hmem ↦ (List.nodup_append.mp hnodup).2.2 _ hmem _ (List.mem_singleton_self _) rfl
      change (s.dependencies.set ecu.name ecu.dependencies).entries = _
      rw [Dict.entries_set_of_not_mem _ _ hnew, hchecked.dependencies, List.map_append]
      rfl

/-- An ECU that fits. -/
theorem exists_validateEcu (zoneId : String) {ecu : EcuEntry} (h : Checked zones ecus s)
    (hnone : s.errors = []) (hfits : Unambiguous zones (ecus ++ [ecu])) :
    ∃ s', validateEcu zoneId s ecu = .ok s' ∧ s'.errors = [] := by
  obtain ⟨-, haddress, hcan⟩ := hfits.ecu_complete ecu (by simp)
  have hname := hfits.name_ne ecu (by simp)
  have hnew : ∀ {β : Type} (f : EcuEntry → β), ((ecus ++ [ecu]).map f).Nodup →
      f ecu ∉ ecus.map f := by
    intro β f hnodup hmem
    rw [List.map_append, List.map_singleton] at hnodup
    exact (List.nodup_append.mp hnodup).2.2 _ hmem _ (List.mem_singleton_self _) rfl
  rw [validateEcu, if_neg hname, haddress, hcan]
  refine ⟨_, rfl, ?_⟩
  simp only [List.append_eq_nil_iff, duplicate_eq_nil]
  rw [h.names, h.addresses, h.canIds]
  exact ⟨hnone, ⟨hnew _ hfits.names, hnew _ hfits.addresses⟩, hnew _ hfits.canIds⟩

/-- A zone that adds no error itself. -/
theorem checked_enterZone {zone : ZoneEntry} (h : s.errors = [] → Checked zones ecus s)
    (hnone : (enterZone s zone).errors = []) :
    Checked (zones ++ [zone]) ecus (enterZone s zone) := by
  obtain ⟨hold, hnew⟩ := List.append_eq_nil_iff.mp hnone
  have hchecked := h hold
  have hentered := recorded_enterZone (fun _ ↦ hchecked.toEntered) hnone
  obtain ⟨⟨hidNonempty, -⟩, ⟨hpos, hport⟩, hchannelNonempty, hchannel⟩ :=
    zoneErrors_eq_nil_iff.mp hnew
  rw [hchecked.servicePorts] at hport
  rw [hchecked.canChannels] at hchannel
  have hall : ∀ {p : ZoneEntry → Prop}, (∀ z ∈ zones, p z) → p zone → ∀ z ∈ zones ++ [zone], p z := by
    intro p hzones hzone z hz
    rcases List.mem_append.mp hz with hz | hz
    · exact hzones z hz
    · rw [List.mem_singleton.mp hz]
      exact hzone
  have hold := hchecked.unambiguous
  refine ⟨hentered, ⟨hentered.well, hall hold.zoneId_ne hidNonempty, hall hold.port_pos hpos,
    nodup_map_concat hold.ports hport, hall hold.channel_ne hchannelNonempty,
    nodup_map_concat hold.channels hchannel, hold.name_ne⟩, ?_, ?_, hchecked.dependencies⟩
  · simp [enterZone, hchecked.servicePorts, ZoneEntry.port]
  · simp [enterZone, hchecked.canChannels, ZoneEntry.channelName]

theorem checked_validateZone {zone : ZoneEntry} (h : s.errors = [] → Checked zones ecus s)
    (hzone : validateZone s zone = .ok s') (hnone : s'.errors = []) :
    Checked (zones ++ [zone]) (ecus ++ zone.ecus) s' := by
  have hstep : ∀ done s ecu s', (s.errors = [] → Checked (zones ++ [zone]) (ecus ++ done) s) →
      validateEcu zone.id s ecu = .ok s' →
      s'.errors = [] → Checked (zones ++ [zone]) (ecus ++ (done ++ [ecu])) s' := by
    intro done s ecu s' hdone hecu hnone
    rw [← List.append_assoc]
    exact checked_validateEcu hdone hecu hnone
  have hstart : (enterZone s zone).errors = [] →
      Checked (zones ++ [zone]) (ecus ++ []) (enterZone s zone) := by
    rw [List.append_nil]
    exact checked_enterZone h
  exact @foldlM_invariant _ _ _
    (fun done s ↦ s.errors = [] → Checked (zones ++ [zone]) (ecus ++ done) s) hstep zone.ecus [] _ s'
    hstart hzone hnone

/-- A loop over elements that fit in front of what has been seen. -/
theorem exists_foldlM_validateEcu {zoneId : String} (rest : List EcuEntry)
    (h : Checked zones ecus s) (hnone : s.errors = []) (hfits : Unambiguous zones (ecus ++ rest)) :
    ∃ s', rest.foldlM (validateEcu zoneId) s = .ok s' ∧ s'.errors = [] := by
  induction rest generalizing ecus s with
  | nil => exact ⟨s, rfl, hnone⟩
  | cons ecu rest ih =>
      rw [List.append_cons] at hfits
      have hfirst : Unambiguous zones (ecus ++ [ecu]) :=
        hfits.transfer (List.Sublist.refl _) (List.sublist_append_left _ rest).subperm
      obtain ⟨t, ht, hnone'⟩ := exists_validateEcu zoneId h hnone hfirst
      obtain ⟨s', hs', hempty⟩ := ih (checked_validateEcu (fun _ ↦ h) ht hnone') hnone' hfits
      refine ⟨s', ?_, hempty⟩
      rw [List.foldlM_cons, ht]
      exact hs'

theorem exists_validateZone {zone : ZoneEntry} (h : Checked zones ecus s) (hnone : s.errors = [])
    (hfits : Unambiguous (zones ++ [zone]) (ecus ++ zone.ecus)) :
    ∃ s', validateZone s zone = .ok s' ∧ s'.errors = [] := by
  have hnew : ∀ {β : Type} (f : ZoneEntry → β), ((zones ++ [zone]).map f).Nodup →
      f zone ∉ zones.map f := by
    intro β f hnodup hmem
    rw [List.map_append, List.map_singleton] at hnodup
    exact (List.nodup_append.mp hnodup).2.2 _ hmem _ (List.mem_singleton_self _) rfl
  have hnone' : (enterZone s zone).errors = [] := by
    refine List.append_eq_nil_iff.mpr ⟨hnone, zoneErrors_eq_nil_iff.mpr ?_⟩
    rw [h.zoneIds, h.servicePorts, h.canChannels]
    exact ⟨⟨hfits.zoneId_ne zone (by simp), hnew _ hfits.zoneIds⟩,
      ⟨hfits.port_pos zone (by simp), hnew _ hfits.ports⟩,
      hfits.channel_ne zone (by simp), hnew _ hfits.channels⟩
  exact exists_foldlM_validateEcu zone.ecus (checked_enterZone (fun _ ↦ h) hnone') hnone' hfits

theorem exists_foldlM_validateZone (rest : List ZoneEntry) (h : Checked zones ecus s)
    (hnone : s.errors = []) (hfits : Unambiguous (zones ++ rest) (ecus ++ rest.flatMap ZoneEntry.ecus)) :
    ∃ s', rest.foldlM validateZone s = .ok s' ∧ s'.errors = [] := by
  induction rest generalizing zones ecus s with
  | nil => exact ⟨s, rfl, hnone⟩
  | cons zone rest ih =>
      rw [List.append_cons, List.flatMap_cons, ← List.append_assoc] at hfits
      have hfirst : Unambiguous (zones ++ [zone]) (ecus ++ zone.ecus) :=
        hfits.transfer ((List.sublist_append_left _ rest).map _)
          (List.sublist_append_left _ (rest.flatMap ZoneEntry.ecus)).subperm
      obtain ⟨t, ht, hnone'⟩ := exists_validateZone h hnone hfirst
      obtain ⟨s', hs', hempty⟩ := ih (checked_validateZone (fun _ ↦ h) ht hnone') hnone' hfits
      refine ⟨s', ?_, hempty⟩
      rw [List.foldlM_cons, ht]
      exact hs'

end Loops

/-! ## The dependencies -/

section Dependencies

variable {zones : List ZoneEntry} {ecus : List EcuEntry} {s : ValidationState}

theorem Checked.dependencyOf_iff (h : Checked zones ecus s) (d n : String) :
    DependencyOf s.dependencies d n ↔ EcuDependency ecus d n := by
  rw [DependencyOf, dependenciesOf, EcuDependency]
  constructor
  · intro hd
    cases hget : s.dependencies.get? n with
    | none =>
        rw [hget] at hd
        exact absurd hd List.not_mem_nil
    | some names =>
        rw [hget] at hd
        rw [Dict.get?_eq_some_iff, h.dependencies] at hget
        obtain ⟨ecu, hecu, heq⟩ := List.mem_map.mp hget
        obtain ⟨rfl, rfl⟩ := Prod.mk.inj heq
        exact ⟨ecu, hecu, rfl, hd⟩
  · rintro ⟨ecu, hecu, rfl, hd⟩
    have hget : s.dependencies.get? ecu.name = some ecu.dependencies := by
      rw [Dict.get?_eq_some_iff, h.dependencies]
      exact List.mem_map_of_mem hecu
    rw [hget]
    exact hd

theorem Checked.unknownDependencies_eq_nil_iff (h : Checked zones ecus s) :
    unknownDependencies s = [] ↔ ∀ ecu ∈ ecus, ∀ d ∈ ecu.dependencies, d ∈ ecus.map EcuEntry.name := by
  rw [unknownDependencies, List.flatMap_eq_nil_iff, h.dependencies, h.names]
  simp only [List.forall_mem_map, List.map_eq_nil_iff, List.filter_eq_nil_iff, decide_eq_true_eq,
    not_not]

end Dependencies

theorem checked_loop {t : VehicleTopology} {s : ValidationState}
    (hloop : t.zones.foldlM validateZone {} = .ok s) (hnone : s.errors = []) :
    Checked t.zones t.ecus s := by
  have hstep : ∀ done s zone s',
      (s.errors = [] → Checked done (done.flatMap ZoneEntry.ecus) s) → validateZone s zone = .ok s' →
      s'.errors = [] → Checked (done ++ [zone]) ((done ++ [zone]).flatMap ZoneEntry.ecus) s' := by
    intro done s zone s' hdone hzone hnone
    rw [List.flatMap_append, List.flatMap_singleton]
    exact checked_validateZone hdone hzone hnone
  exact @foldlM_invariant _ _ _
    (fun done s ↦ s.errors = [] → Checked done (done.flatMap ZoneEntry.ecus) s) hstep t.zones [] {}
    s (fun _ ↦ checked_initial) hloop hnone

/-- `validate` returns no error exactly for the valid topologies. -/
theorem validate_eq_nil_iff (t : VehicleTopology) : t.validate = .ok [] ↔ Valid t.zones t.ecus := by
  constructor
  · intro h
    obtain ⟨s, hloop, h⟩ := bind_eq_ok.mp h
    obtain ⟨cycleErrors, hcycles, hacyclic⟩ := dependencyCycleErrors_spec s.dependencies
    rw [hcycles] at h
    have hempty := Except.ok.inj h
    simp only [List.append_eq_nil_iff] at hempty
    obtain ⟨⟨hnone, hknown⟩, hnocycle⟩ := hempty
    have hchecked := checked_loop hloop hnone
    refine ⟨hchecked.unambiguous, hchecked.unknownDependencies_eq_nil_iff.mp hknown, ?_⟩
    exact (hacyclic.mp hnocycle).mono fun d n hdn ↦ (hchecked.dependencyOf_iff d n).mpr hdn
  · intro h
    obtain ⟨s, hloop, hnone⟩ := exists_foldlM_validateZone t.zones checked_initial rfl
      h.toUnambiguous
    have hchecked := checked_loop hloop hnone
    obtain ⟨cycleErrors, hcycles, hacyclic⟩ := dependencyCycleErrors_spec s.dependencies
    have hnocycle : cycleErrors = [] :=
      hacyclic.mpr (h.acyclic.mono fun d n hdn ↦ (hchecked.dependencyOf_iff d n).mp hdn)
    refine bind_eq_ok.mpr ⟨s, hloop, ?_⟩
    rw [hcycles, hnone, hnocycle, hchecked.unknownDependencies_eq_nil_iff.mpr h.known]
    rfl

end VehicleTopology

end VehicleOta
