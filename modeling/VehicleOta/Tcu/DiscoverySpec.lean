import VehicleOta.Tcu.ZoneDiscovery

/-!
# What a discovery loses

A discovery keeps an ECU apart from the others by an identifier from its own table of three names.
-/

namespace VehicleOta.Tcu

open VehicleTopology ECUDiscovery

/-- The vehicle holds every ECU that answered once, with its identifier and dependencies from the
topology, and no other. -/
def Lossless (t : VehicleTopology) (answered : EcuEntry → Prop)
    (result : Except PyError DiscoveredVehicle) : Prop :=
  ∃ vehicle, result = .ok vehicle ∧
    (vehicle.getAllEcus.map fun found ↦ found.ecuName).Nodup ∧
    (∀ ecu ∈ t.ecus, answered ecu → ∃ found ∈ vehicle.getAllEcus, found.ecuName = ecu.name ∧
      (found.ecuId : ℤ) = ecu.can ∧ found.dependencies = ecu.dependencies) ∧
    ∀ found ∈ vehicle.getAllEcus, ∃ ecu ∈ t.ecus, answered ecu ∧ ecu.name = found.ecuName

/-- The answer is a version, and the table has the identifier of the ECU. -/
def Identified (ecu : EcuEntry) (version : Option String) : Prop :=
  (∃ current, normalizeRead version = .ok current) ∧ (canIdForName ecu.name : ℤ) = ecu.can

section Survey

variable {t : VehicleTopology} {transport : String} {read : VersionRead}
  {asked : List (EcuEntry × String)} {s s' : Survey}

def sighting (read : VersionRead) (x : EcuEntry × String) : Sighting :=
  ⟨x.1.name, x.2, read x.1.address⟩

/-- The record of an ECU that is identified. -/
def record (transport : String) (x : EcuEntry × String) (current : String) : DiscoveredEcu where
  ecuId := canIdForName x.1.name
  ecuName := x.1.name
  currentVersion := current
  transport := transport
  canChannel := x.2
  dependencies := x.1.dependencies

def expected (transport : String) (read : VersionRead) (x : EcuEntry × String) :
    Option (ℕ × DiscoveredEcu) :=
  match read x.1.address with
  | .error _ => none
  | .ok version => some (canIdForName x.1.name,
      record transport x ((normalizeRead version).toOption.getD ""))

theorem expected_spec {x : EcuEntry × String} {entry : ℕ × DiscoveredEcu}
    (h : expected transport read x = some entry) : (∃ version, read x.1.address = .ok version) ∧
      entry.1 = canIdForName x.1.name ∧ entry.2.ecuId = canIdForName x.1.name ∧
      entry.2.ecuName = x.1.name ∧ entry.2.dependencies = x.1.dependencies := by
  unfold expected at h
  split at h
  · cases h
  · rename_i version hversion
    obtain rfl := Option.some.inj h
    exact ⟨⟨version, hversion⟩, rfl, rfl, rfl, rfl⟩

/-- Every ECU in the vehicle is one of those asked, whose answer is a version. -/
def Heard (asked : List Sighting) (s : Survey) : Prop :=
  ∀ id found, s.vehicle.ecus.get? id = some found → ∃ seen ∈ asked, found.ecuName = seen.ecuName ∧
    found.ecuId = canIdForName seen.ecuName ∧
    ∃ version current, seen.answer = .ok version ∧ normalizeRead version = .ok current

theorem heard_enter {done : List Sighting} {seen : Sighting} (h : Heard done s)
    (henter : enter t transport s seen = .ok s') : Heard (done ++ [seen]) s' := by
  have hold : Heard (done ++ [seen]) s := by
    intro id found hfound
    obtain ⟨other, hother, hspec⟩ := h id found hfound
    exact ⟨other, List.mem_append_left _ hother, hspec⟩
  unfold enter at henter
  cases hanswer : seen.answer with
  | error err =>
      simp only [hanswer] at henter
      rwa [← Except.ok.inj henter]
  | ok version =>
      simp only [hanswer] at henter
      split at henter
      · rwa [← Except.ok.inj henter]
      · obtain ⟨current, hcurrent, henter⟩ := bind_eq_ok.mp henter
        obtain ⟨dependencies, -, henter⟩ := bind_eq_ok.mp henter
        obtain rfl := Except.ok.inj henter
        intro id found hfound
        rw [DiscoveredVehicle.addEcu, Dict.get?_set] at hfound
        split at hfound
        · obtain rfl := Option.some.inj hfound
          exact ⟨seen, List.mem_append_right _ (List.mem_singleton_self _), rfl, rfl, version,
            current, hanswer, hcurrent⟩
        · exact hold id found hfound

theorem heard_foldlM {seen : List Sighting} (hloop : seen.foldlM (enter t transport) {} = .ok s) :
    Heard seen s := by
  have hinitial : Heard [] {} := by
    intro id found hfound
    cases hfound
  exact @foldlM_invariant _ _ _ Heard (fun _ _ _ _ ↦ heard_enter) seen [] {} s hinitial hloop

theorem enter_of_identified {x : EcuEntry × String} {version : Option String} {current : String}
    (hwell : WellDeclared t.zones t.ecus) (hdisplay : t.DisplayNamed) (hin : x.1 ∈ t.ecus)
    (hread : read x.1.address = .ok version) (hcurrent : normalizeRead version = .ok current)
    (hcan : (canIdForName x.1.name : ℤ) = x.1.can) (hfresh : canIdForName x.1.name ∉ s.discovered) :
    enter t transport s (sighting read x) = .ok {
      discovered := s.discovered ++ [canIdForName x.1.name]
      vehicle := s.vehicle.addEcu (record transport x current) } := by
  have hdependencies : t.dependencyForCanId (canIdForName x.1.name) = .ok x.1.dependencies := by
    rw [hcan]
    exact dependencyForCanId_eq hwell hdisplay hin
  simp only [enter, sighting, hread, if_neg hfresh, hcurrent, hdependencies, bind, Except.bind]
  rfl

/-- Where all are identified, the vehicle holds the expected entries in their order. -/
theorem foldlM_enter (hwell : WellDeclared t.zones t.ecus) (hdisplay : t.DisplayNamed)
    (hin : ∀ x ∈ asked, x.1 ∈ t.ecus) (hcans : (asked.map fun x ↦ x.1.can).Nodup)
    (hidentified : ∀ x ∈ asked, ∀ version, read x.1.address = .ok version → Identified x.1 version)
    (hkeys : s.discovered = s.vehicle.ecus.keys)
    (hnew : ∀ x ∈ asked, ∀ id ∈ s.discovered, (id : ℤ) ≠ x.1.can) :
    ∃ s', (asked.map (sighting read)).foldlM (enter t transport) s = .ok s' ∧
      s'.vehicle.ecus.entries = s.vehicle.ecus.entries ++ asked.filterMap (expected transport read) := by
  induction asked generalizing s with
  | nil => exact ⟨s, rfl, (List.append_nil _).symm⟩
  | cons x asked ih =>
      rw [List.map_cons, List.nodup_cons] at hcans
      have hlater := fun y hy ↦ hin y (List.mem_cons_of_mem x hy)
      have hidentified' := fun y hy ↦ hidentified y (List.mem_cons_of_mem x hy)
      rw [List.map_cons, List.foldlM_cons]
      cases hread : read x.1.address with
      | error err =>
          have henter : enter t transport s (sighting read x) = .ok s := by
            simp only [enter, sighting, hread]
          have hexpected : expected transport read x = none := by
            simp only [expected, hread]
          obtain ⟨s', hloop, hentries⟩ := ih hlater hcans.2 hidentified' hkeys fun y hy ↦
            hnew y (List.mem_cons_of_mem x hy)
          refine ⟨s', ?_, ?_⟩
          · rw [henter]
            exact hloop
          · rw [hentries, List.filterMap_cons_none hexpected]
      | ok version =>
          obtain ⟨⟨current, hcurrent⟩, hcan⟩ := hidentified x List.mem_cons_self version hread
          have hfresh : canIdForName x.1.name ∉ s.discovered := fun hmem ↦
            hnew x List.mem_cons_self _ hmem hcan
          have henter := @enter_of_identified t transport read s x version current hwell hdisplay
            (hin x List.mem_cons_self) hread hcurrent hcan hfresh
          have hexpected : expected transport read x =
              some (canIdForName x.1.name, record transport x current) := by
            simp only [expected, hread, hcurrent]
            rfl
          have hecus : (s.vehicle.addEcu (record transport x current)).ecus.entries =
              s.vehicle.ecus.entries ++ [(canIdForName x.1.name, record transport x current)] :=
            Dict.entries_set_of_not_mem _ _ (hkeys ▸ hfresh)
          have hkeys' : s.discovered ++ [canIdForName x.1.name] =
              (s.vehicle.addEcu (record transport x current)).ecus.keys := by
            rw [Dict.keys, hecus, List.map_append, hkeys]
            rfl
          have hnew' : ∀ y ∈ asked, ∀ id ∈ s.discovered ++ [canIdForName x.1.name],
              (id : ℤ) ≠ y.1.can := by
            intro y hy id hid
            rcases List.mem_append.mp hid with hid | hid
            · exact hnew y (List.mem_cons_of_mem x hy) id hid
            · rw [List.mem_singleton.mp hid, hcan]
              intro heq
              exact hcans.1 (heq ▸ List.mem_map_of_mem hy)
          obtain ⟨s', hloop, hentries⟩ := @ih {
            discovered := s.discovered ++ [canIdForName x.1.name]
            vehicle := s.vehicle.addEcu (record transport x current) } hlater hcans.2 hidentified'
            hkeys' hnew'
          refine ⟨s', ?_, ?_⟩
          · rw [henter]
            exact hloop
          · rw [hentries, hecus, List.filterMap_cons_some hexpected, List.append_assoc]
            rfl

end Survey

section Lossless

variable {t : VehicleTopology} {transport : String} {read : VersionRead}
  {asked : List (EcuEntry × String)}

theorem survey_of_identified (hwell : WellDeclared t.zones t.ecus) (hdisplay : t.DisplayNamed)
    (hsub : (asked.map Prod.fst).Sublist t.ecus)
    (hidentified : ∀ x ∈ asked, ∀ version, read x.1.address = .ok version →
      Identified x.1 version) :
    ∃ s : Survey, (asked.map (sighting read)).foldlM (enter t transport) {} = .ok s ∧
      s.vehicle.getAllEcus = (asked.filterMap (expected transport read)).map Prod.snd := by
  have hin : ∀ x ∈ asked, x.1 ∈ t.ecus := fun x hx ↦ hsub.subset (List.mem_map_of_mem hx)
  have hcans : (asked.map fun x ↦ x.1.can).Nodup := by
    have h := hwell.canIds.sublist (hsub.map EcuEntry.can)
    rwa [List.map_map] at h
  obtain ⟨s, hloop, hentries⟩ := @foldlM_enter t transport read asked {} hwell hdisplay hin hcans
    hidentified rfl (fun _ _ _ hid ↦ absurd hid List.not_mem_nil)
  refine ⟨s, hloop, ?_⟩
  rw [DiscoveredVehicle.getAllEcus, Dict.values, hentries]
  rfl

theorem nodup_expected (hwell : WellDeclared t.zones t.ecus)
    (hsub : (asked.map Prod.fst).Sublist t.ecus) :
    (((asked.filterMap (expected transport read)).map Prod.snd).map
      fun found ↦ found.ecuName).Nodup := by
  have hnames : (asked.map fun x ↦ x.1.name).Nodup := by
    have h := hwell.names.sublist (hsub.map EcuEntry.name)
    rwa [List.map_map] at h
  rw [List.map_map]
  refine List.pairwise_map.mpr (List.Pairwise.filterMap _ ?_ (List.pairwise_map.mp hnames))
  intro x y hne entry hentry other hother
  rw [Function.comp_apply, Function.comp_apply, (expected_spec hentry).2.2.2.1,
    (expected_spec hother).2.2.2.1]
  exact hne

/-- A survey loses no ECU exactly if each of those that answered is identified. -/
theorem survey_lossless_iff (hwell : WellDeclared t.zones t.ecus) (hdisplay : t.DisplayNamed)
    (hsub : (asked.map Prod.fst).Sublist t.ecus) :
    Lossless t (fun ecu ↦ ecu ∈ asked.map Prod.fst ∧ ∃ version, read ecu.address = .ok version)
      ((asked.map (sighting read)).foldlM (enter t transport) {} >>= fun s ↦ pure s.vehicle) ↔
      ∀ ecu ∈ asked.map Prod.fst, ∀ version, read ecu.address = .ok version →
        Identified ecu version := by
  constructor
  · rintro ⟨vehicle, hresult, -, hall, -⟩ ecu hecu version hread
    obtain ⟨s, hloop, hvehicle⟩ := bind_eq_ok.mp hresult
    obtain rfl := Except.ok.inj hvehicle
    obtain ⟨found, hfound, hname, hcan, -⟩ := hall ecu (hsub.subset hecu) ⟨hecu, version, hread⟩
    obtain ⟨entry, hentry, rfl⟩ := List.mem_map.mp hfound
    obtain ⟨seen, hseen, hseenName, hid, answer, current, hanswer, hcurrent⟩ :=
      heard_foldlM hloop entry.1 entry.2 ((Dict.get?_eq_some_iff _ _ _).mpr hentry)
    obtain ⟨x, hx, rfl⟩ := List.mem_map.mp hseen
    -- the record of that name comes from this ECU
    have hsame : x.1 = ecu := List.inj_on_of_nodup_map hwell.names
      (hsub.subset (List.mem_map_of_mem hx)) (hsub.subset hecu) (hseenName.symm.trans hname)
    have hversion : answer = version := by
      rw [sighting, hsame, hread] at hanswer
      exact (Except.ok.inj hanswer).symm
    refine ⟨⟨current, hversion ▸ hcurrent⟩, ?_⟩
    rw [← hcan, hid, sighting, hsame]
  · intro hidentified
    obtain ⟨s, hloop, hecus⟩ := @survey_of_identified t transport read asked hwell hdisplay hsub
      fun x hx ↦ hidentified x.1 (List.mem_map_of_mem hx)
    refine ⟨s.vehicle, by rw [hloop]; rfl, ?_, ?_, ?_⟩
    · rw [hecus]
      exact nodup_expected hwell hsub
    · rintro ecu - ⟨hecu, version, hread⟩
      obtain ⟨x, hx, rfl⟩ := List.mem_map.mp hecu
      obtain ⟨-, hcan⟩ := hidentified x.1 hecu version hread
      refine ⟨record transport x ((normalizeRead version).toOption.getD ""), ?_, rfl, hcan, rfl⟩
      rw [hecus]
      refine List.mem_map.mpr ⟨(canIdForName x.1.name, _), List.mem_filterMap.mpr ⟨x, hx, ?_⟩, rfl⟩
      simp only [expected, hread]
      rfl
    · intro found hfound
      rw [hecus] at hfound
      obtain ⟨entry, hentry, rfl⟩ := List.mem_map.mp hfound
      obtain ⟨x, hx, hexpected⟩ := List.mem_filterMap.mp hentry
      obtain ⟨hread, -, -, hname, -⟩ := expected_spec hexpected
      exact ⟨x.1, hsub.subset (List.mem_map_of_mem hx), ⟨List.mem_map_of_mem hx, hread⟩, hname.symm⟩

end Lossless

/-! ## The two discoveries -/

section Discoveries

variable {t : VehicleTopology} {services : ZoneServices} {now : ℚ} {read : VersionRead}

/-- The zone's controller reports the ECU in use. -/
def Available (t : VehicleTopology) (services : ZoneServices) (now : ℚ) (ecu : EcuEntry) : Prop :=
  ∃ zone ∈ t.zones, ecu ∈ zone.ecus ∧
    ZoneController.usable ((services zone.id).ecuAvailability now ecu.can) = true

/-- The ECUs whose versions are read over the zones, with the channels of their zones. -/
def zoneAsked (t : VehicleTopology) (services : ZoneServices) (now : ℚ) :
    List (EcuEntry × String) :=
  t.zones.flatMap fun zone ↦
    (zone.ecus.filter fun ecu ↦
      ZoneController.usable ((services zone.id).ecuAvailability now ecu.can)).map
      fun ecu ↦ (ecu, zone.channel.getD "")

def doipAsked (t : VehicleTopology) : List (EcuEntry × String) :=
  t.zones.flatMap fun zone ↦ zone.ecus.map fun ecu ↦ (ecu, "doip")

theorem sublist_zoneAsked : ((zoneAsked t services now).map Prod.fst).Sublist t.ecus := by
  rw [zoneAsked, VehicleTopology.ecus, List.map_flatMap]
  induction t.zones with
  | nil => exact List.Sublist.refl _
  | cons zone zones ih =>
      rw [List.flatMap_cons, List.flatMap_cons]
      refine List.Sublist.append ?_ ih
      rw [List.map_map, Function.comp_def, List.map_id']
      exact List.filter_sublist

theorem mem_zoneAsked {ecu : EcuEntry} :
    ecu ∈ (zoneAsked t services now).map Prod.fst ↔ Available t services now ecu := by
  simp [zoneAsked, Available]

theorem map_fst_doipAsked : (doipAsked t).map Prod.fst = t.ecus := by
  rw [doipAsked, VehicleTopology.ecus, List.map_flatMap]
  refine List.flatMap_congr fun zone _ ↦ ?_
  rw [List.map_map, Function.comp_def, List.map_id']

theorem zoneSightings_eq (hwell : WellDeclared t.zones t.ecus) :
    zoneSightings services now read
        (Dict.ofPairs (t.zones.map fun zone ↦ (zone.id, t.configured zone))) =
      (zoneAsked t services now).map (sighting read) := by
  rw [zoneSightings, values_zoneRegistry hwell, List.flatMap_map, zoneAsked, List.map_flatMap]
  refine List.flatMap_congr fun zone hzone ↦ ?_
  have hentries := entries_configured hwell hzone
  have hconfig : (services.controller (t.configured zone)).config = t.configured zone := rfl
  rw [ZoneController.inventory, hconfig, hentries, List.map_map, List.map_map, List.filter_map,
    List.map_map]
  rfl

theorem discoverCanViaZones_eq {transport : String} (hwell : WellDeclared t.zones t.ecus)
    (hdisplay : t.DisplayNamed) :
    discoverCanViaZones t services now read transport =
      ((zoneAsked t services now).map (sighting read)).foldlM (enter t transport) {} >>=
        fun s ↦ pure s.vehicle := by
  rw [discoverCanViaZones, buildZoneRegistry_eq hwell hdisplay, ← zoneSightings_eq hwell]
  rfl

theorem discoverDoip_eq {transport : String} (hwell : WellDeclared t.zones t.ecus)
    (hdisplay : t.DisplayNamed) :
    discoverDoip t read transport =
      ((doipAsked t).map (sighting read)).foldlM (enter t transport) {} >>=
        fun s ↦ pure s.vehicle := by
  obtain ⟨registry, hregistry, hentries⟩ := ecuRegistry_eq hwell hdisplay
  have hsightings : (registry.entries.map fun entry ↦
      Sighting.mk entry.1 "doip" (read entry.2.logicalAddress)) =
      (doipAsked t).map (sighting read) := by
    rw [hentries, doipAsked, List.map_flatMap, List.map_flatMap]
    refine List.flatMap_congr fun zone _ ↦ ?_
    rw [List.map_map, List.map_map]
    rfl
  rw [discoverDoip, hregistry, ← hsightings]
  rfl

theorem displayNamed_of_zones {transport : String} {answered : EcuEntry → Prop}
    (h : Lossless t answered (discoverCanViaZones t services now read transport)) :
    t.DisplayNamed := by
  obtain ⟨vehicle, hresult, -⟩ := h
  obtain ⟨registry, hregistry, -⟩ := bind_eq_ok.mp hresult
  exact displayNamed_of_registry hregistry

theorem displayNamed_of_doip {transport : String} {answered : EcuEntry → Prop}
    (h : Lossless t answered (discoverDoip t read transport)) : t.DisplayNamed := by
  obtain ⟨vehicle, hresult, -⟩ := h
  obtain ⟨registry, hregistry, -⟩ := bind_eq_ok.mp hresult
  obtain ⟨zones, hzones, -⟩ := bind_eq_ok.mp hregistry
  exact displayNamed_of_registry hzones

theorem lossless_congr {answered answered' : EcuEntry → Prop}
    {result : Except PyError DiscoveredVehicle}
    (h : ∀ ecu ∈ t.ecus, answered ecu ↔ answered' ecu) :
    Lossless t answered result ↔ Lossless t answered' result := by
  have hall : ∀ vehicle : DiscoveredVehicle, (∀ ecu ∈ t.ecus, answered ecu →
      ∃ found ∈ vehicle.getAllEcus, found.ecuName = ecu.name ∧ (found.ecuId : ℤ) = ecu.can ∧
        found.dependencies = ecu.dependencies) ↔ ∀ ecu ∈ t.ecus, answered' ecu →
      ∃ found ∈ vehicle.getAllEcus, found.ecuName = ecu.name ∧ (found.ecuId : ℤ) = ecu.can ∧
        found.dependencies = ecu.dependencies := fun vehicle ↦
    forall₂_congr fun ecu hecu ↦ imp_congr_left (h ecu hecu)
  have honly : ∀ found : DiscoveredEcu, (∃ ecu ∈ t.ecus, answered ecu ∧ ecu.name = found.ecuName) ↔
      ∃ ecu ∈ t.ecus, answered' ecu ∧ ecu.name = found.ecuName := fun found ↦
    exists_congr fun ecu ↦ and_congr_right fun hecu ↦ and_congr_left' (h ecu hecu)
  unfold Lossless
  simp only [hall, honly]

end Discoveries

theorem zones_lossless_iff {t : VehicleTopology} (hwell : WellDeclared t.zones t.ecus)
    (services : ZoneServices) (now : ℚ) (read : VersionRead) (transport : String) :
    Lossless t (fun ecu ↦ Available t services now ecu ∧ ∃ version, read ecu.address = .ok version)
      (discoverCanViaZones t services now read transport) ↔
      t.DisplayNamed ∧ ∀ ecu ∈ t.ecus, Available t services now ecu →
        ∀ version, read ecu.address = .ok version → Identified ecu version := by
  have hasked : ∀ ecu ∈ t.ecus,
      (Available t services now ecu ∧ ∃ version, read ecu.address = .ok version) ↔
      (ecu ∈ (zoneAsked t services now).map Prod.fst ∧
        ∃ version, read ecu.address = .ok version) := fun ecu _ ↦ by rw [mem_zoneAsked]
  have hsurvey := fun hdisplay ↦ @survey_lossless_iff t transport read (zoneAsked t services now)
    hwell hdisplay sublist_zoneAsked
  constructor
  · intro h
    have hdisplay := displayNamed_of_zones h
    rw [lossless_congr hasked, discoverCanViaZones_eq hwell hdisplay, hsurvey hdisplay] at h
    exact ⟨hdisplay, fun ecu _ havailable ↦ h ecu (mem_zoneAsked.mpr havailable)⟩
  · rintro ⟨hdisplay, hidentified⟩
    rw [lossless_congr hasked, discoverCanViaZones_eq hwell hdisplay, hsurvey hdisplay]
    intro ecu hecu
    exact hidentified ecu (sublist_zoneAsked.subset hecu) (mem_zoneAsked.mp hecu)

theorem doip_lossless_iff {t : VehicleTopology} (hwell : WellDeclared t.zones t.ecus)
    (read : VersionRead) (transport : String) :
    Lossless t (fun ecu ↦ ∃ version, read ecu.address = .ok version)
      (discoverDoip t read transport) ↔
      t.DisplayNamed ∧ ∀ ecu ∈ t.ecus,
        ∀ version, read ecu.address = .ok version → Identified ecu version := by
  have hasked : ∀ ecu ∈ t.ecus, (∃ version, read ecu.address = .ok version) ↔
      (ecu ∈ (doipAsked t).map Prod.fst ∧ ∃ version, read ecu.address = .ok version) := by
    intro ecu hecu
    rw [map_fst_doipAsked]
    exact (and_iff_right hecu).symm
  have hsub : ((doipAsked t).map Prod.fst).Sublist t.ecus := by
    rw [map_fst_doipAsked]
  have hsurvey := fun hdisplay ↦ @survey_lossless_iff t transport read (doipAsked t) hwell
    hdisplay hsub
  rw [map_fst_doipAsked] at hsurvey
  constructor
  · intro h
    have hdisplay := displayNamed_of_doip h
    rw [lossless_congr hasked, discoverDoip_eq hwell hdisplay, map_fst_doipAsked,
      hsurvey hdisplay] at h
    exact ⟨hdisplay, h⟩
  · rintro ⟨hdisplay, hidentified⟩
    rw [lossless_congr hasked, discoverDoip_eq hwell hdisplay, map_fst_doipAsked,
      hsurvey hdisplay]
    exact hidentified

/-- On a topology without errors a discovery loses no ECU exactly if the topology has its display
names and every ECU that answers sends a version and has the CAN id of the table of names. -/
theorem discovery_lossless_iff (t : VehicleTopology) (hvalid : t.validate = .ok [])
    (services : ZoneServices) (now : ℚ) (read : VersionRead) (transport : String) :
    (Lossless t (fun ecu ↦ Available t services now ecu ∧ ∃ version, read ecu.address = .ok version)
      (discoverCanViaZones t services now read transport) ↔
      t.DisplayNamed ∧ ∀ ecu ∈ t.ecus, Available t services now ecu →
        ∀ version, read ecu.address = .ok version → Identified ecu version) ∧
    (Lossless t (fun ecu ↦ ∃ version, read ecu.address = .ok version)
      (discoverDoip t read transport) ↔
      t.DisplayNamed ∧ ∀ ecu ∈ t.ecus,
        ∀ version, read ecu.address = .ok version → Identified ecu version) := by
  have hwell := wellDeclared_of_validate hvalid
  constructor
  · exact zones_lossless_iff hwell services now read transport
  · exact doip_lossless_iff hwell read transport

/-! ## The two vehicles of the demo -/

/-- Every ECU answers with its version. -/
def everyoneReads : VersionRead := fun _ ↦ .ok (some "1.0.0")

/-- Every zone answers, with its heartbeat monitor off. -/
def calmServices : ZoneServices := fun zoneId ↦ {
  config := {
    zoneId
    displayName := zoneId
    canChannel := ""
    servicePort := 15001
    defaultHealth := "AUTO"
    programmingAllowed := true
    allowedServices := demoServices
    ecus := Dict.empty }
  options := { heartbeatMonitorEnabled := false } }

theorem discovery_lossless_demo :
    Lossless demoTopology (fun ecu ↦ Available demoTopology calmServices 0 ecu ∧
        ∃ version, everyoneReads ecu.address = .ok version)
      (discoverCanViaZones demoTopology calmServices 0 everyoneReads "VCAN") ∧
    Lossless demoTopology (fun ecu ↦ ∃ version, everyoneReads ecu.address = .ok version)
      (discoverDoip demoTopology everyoneReads "DOIP") := by
  have hvalid : demoTopology.validate = .ok [] := validate_eq_of_toOption (by decide +kernel)
  have hdisplay : demoTopology.DisplayNamed := by
    intro zone hzone
    simp only [demoTopology, List.mem_cons, List.not_mem_nil, or_false] at hzone
    rcases hzone with rfl | rfl | rfl <;> rfl
  have hcans : ∀ ecu ∈ demoTopology.ecus, (canIdForName ecu.name : ℤ) = ecu.can := by
    decide
  have hversion : ∃ current, normalizeRead (some "1.0.0") = .ok current := ⟨_, rfl⟩
  have hidentified : ∀ ecu ∈ demoTopology.ecus, ∀ version,
      everyoneReads ecu.address = .ok version → Identified ecu version := by
    intro ecu hecu version hread
    obtain rfl := Except.ok.inj hread
    exact ⟨hversion, hcans ecu hecu⟩
  have h := discovery_lossless_iff demoTopology hvalid calmServices 0 everyoneReads
  exact ⟨(h "VCAN").1.mpr ⟨hdisplay, fun ecu hecu _ ↦ hidentified ecu hecu⟩,
    (h "DOIP").2.mpr ⟨hdisplay, hidentified⟩⟩

/-- On the midsize vehicle both discoveries lose ECUs that answer. -/
theorem midsize_loses_ecus : midsizeTopology.validate = .ok [] ∧
    ¬ Lossless midsizeTopology (fun ecu ↦
        Available midsizeTopology calmServices 0 ecu ∧
          ∃ version, everyoneReads ecu.address = .ok version)
      (discoverCanViaZones midsizeTopology calmServices 0 everyoneReads "VCAN") ∧
    ¬ Lossless midsizeTopology (fun ecu ↦ ∃ version, everyoneReads ecu.address = .ok version)
      (discoverDoip midsizeTopology everyoneReads "DOIP") := by
  have hvalid : midsizeTopology.validate = .ok [] := validate_eq_of_toOption (by decide +kernel)
  have hwell := wellDeclared_of_validate hvalid
  have hproxy : ¬ Identified (demoEntry "TCU Proxy ECU" 0x1011 0x211 ["Gateway ECU"])
      (some "1.0.0") := fun h ↦ absurd h.2 (by decide)
  have hmem : demoEntry "TCU Proxy ECU" 0x1011 0x211 ["Gateway ECU"] ∈ midsizeTopology.ecus := by
    decide
  refine ⟨hvalid, fun h ↦ ?_, fun h ↦ ?_⟩
  · obtain ⟨-, hidentified⟩ := (zones_lossless_iff hwell _ _ _ _).mp h
    refine hproxy (hidentified _ hmem ⟨_, List.mem_cons_self, ?_, rfl⟩ _ rfl)
    exact List.mem_cons_of_mem _ (List.mem_singleton_self _)
  · obtain ⟨-, hidentified⟩ := (doip_lossless_iff hwell _ _).mp h
    exact hproxy (hidentified _ hmem _ rfl)

end VehicleOta.Tcu
