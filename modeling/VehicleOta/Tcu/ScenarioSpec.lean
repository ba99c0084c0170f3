import VehicleOta.Tcu.ScenarioRunner
import VehicleOta.Vehicle.ValidTopology

/-!
# A scenario keeps the vehicle

On a topology without errors, the mutation moves every ECU into its assigned or its original zone
and loses none, whatever the assignments are; only an assignment to a zone that does not exist is
raised.  Every object that it changes is its own copy.
-/

namespace VehicleOta.Tcu

open CrashLogic VehicleTopology

/-! ## Lists sorted into bins -/

section Bins

variable {α κ : Type} [DecidableEq κ]

/-- Elements that are sorted into the bins of their keys are all still there. -/
theorem perm_flatMap_filter (key : α → κ) {keys : List κ} (hkeys : keys.Nodup) (xs : List α)
    (hall : ∀ x ∈ xs, key x ∈ keys) :
    (keys.flatMap fun k ↦ xs.filter fun x ↦ key x = k).Perm xs := by
  induction keys generalizing xs with
  | nil =>
      have hnil : xs = [] := List.eq_nil_iff_forall_not_mem.mpr fun x hx ↦
        absurd (hall x hx) List.not_mem_nil
      rw [hnil]
      exact List.Perm.refl _
  | cons k keys ih =>
      obtain ⟨hk, hkeys⟩ := List.nodup_cons.mp hkeys
      have hrest := ih hkeys (xs.filter fun x ↦ !(key x = k : Bool)) fun x hx ↦ by
        obtain ⟨hx, hne⟩ := List.mem_filter.mp hx
        exact (List.mem_cons.mp (hall x hx)).resolve_left (by simpa using hne)
      have hsame : (keys.flatMap fun k' ↦ (xs.filter fun x ↦ !(key x = k : Bool)).filter
          fun x ↦ key x = k') = keys.flatMap fun k' ↦ xs.filter fun x ↦ key x = k' := by
        refine List.flatMap_congr fun k' hk' ↦ ?_
        rw [List.filter_filter]
        refine List.filter_congr fun x _ ↦ ?_
        by_cases hx : key x = k'
        · have hne : k' ≠ k := fun heq ↦ hk (heq ▸ hk')
          simp [hx, hne]
        · simp [hx]
      rw [hsame] at hrest
      rw [List.flatMap_cons]
      exact (hrest.append_left _).trans (List.filter_append_perm (fun x ↦ key x = k) xs)

end Bins

/-- A loop without exceptions. -/
theorem foldlM_eq_ok_foldl {α σ : Type} {f : σ → α → Except PyError σ} {g : σ → α → σ} {xs : List α}
    (h : ∀ s, ∀ x ∈ xs, f s x = .ok (g s x)) (s : σ) : xs.foldlM f s = .ok (xs.foldl g s) := by
  induction xs generalizing s with
  | nil => rfl
  | cons x xs ih =>
      rw [List.foldlM_cons, h s x List.mem_cons_self]
      exact ih (fun s y hy ↦ h s y (List.mem_cons_of_mem x hy)) (g s x)

namespace ScenarioRunner

variable {ζ ε τ : Type}

/-! ## Copies -/

/-- The zones below `n` are those of `h`. -/
def Kept (n : ℕ) (h t : Heap ζ ε) : Prop := ∀ ref < n, t.zones ref = h.zones ref

theorem returns_copyZones {n : ℕ} {h₀ : Heap ζ ε} (refs : List ℕ) (h : Heap ζ ε)
    (hrefs : ∀ ref ∈ refs, ref < h.next) (hn : n ≤ h.next) (hkept : Kept n h₀ h) :
    (copyZones refs).returns (fun _ t ↦ Kept n h₀ t) (fun copies t ↦
      copies = List.range' h.next refs.length ∧ Kept n h₀ t ∧ Kept h.next h t ∧
        copies.map t.zones = refs.map h.zones) h := by
  induction refs generalizing h with
  | nil => exact (Persist.returns_pure _).mpr ⟨rfl, hkept, fun _ _ ↦ rfl, rfl⟩
  | cons ref refs ih =>
      have hold : Kept h.next h (h.alloc (h.zones ref)) := fun other hother ↦
        h.zones_alloc_of_lt _ hother
      have hkept' : Kept n h₀ (h.alloc (h.zones ref)) := fun other hother ↦
        (hold other (hother.trans_le hn)).trans (hkept other hother)
      rw [copyZones, Persist.returns_reads_bind, Persist.returns_write_bind]
      refine ⟨hkept', Persist.returns_bind (ih (h.alloc (h.zones ref)) ?_ ?_ hkept') ?_⟩
      · exact fun other hother ↦ (hrefs other (List.mem_cons_of_mem ref hother)).trans
          (Nat.lt_succ_self _)
      · exact hn.trans (Nat.le_succ _)
      · rintro copies t ⟨rfl, hkept'', hlater, hcopies⟩
        rw [Persist.returns_pure]
        refine ⟨List.range'_succ.symm, hkept'', fun other hother ↦ ?_, ?_⟩
        · exact (hlater other (hother.trans (Nat.lt_succ_self _))).trans (hold other hother)
        · have hfirst : t.zones h.next = h.zones ref :=
            (hlater h.next (Nat.lt_succ_self _)).trans (h.zones_alloc_next _)
          have hrest : refs.map (h.alloc (h.zones ref)).zones = refs.map h.zones :=
            List.map_congr_left fun other hother ↦
              hold other (hrefs other (List.mem_cons_of_mem ref hother))
          rw [List.map_cons, List.map_cons, hfirst, hcopies, hrest]

/-! ## Loops over the copies -/

theorem returns_modifyZone {n ref : ℕ} {h₀ h : Heap ζ ε} (f : ZoneObject ζ ε → ZoneObject ζ ε)
    (href : n ≤ ref) (hkept : Kept n h₀ h) :
    (modifyZone ref f).returns (fun _ t ↦ Kept n h₀ t)
      (fun _ t ↦ Kept n h₀ t ∧ t = h.modify ref f) h := by
  have hkept' : Kept n h₀ (h.modify ref f) := fun other hother ↦
    (h.zones_modify_of_ne f (hother.trans_le href).ne).trans (hkept other hother)
  exact (Persist.returns_write _ _).mpr ⟨hkept', hkept', rfl⟩

theorem returns_forEach_modifyZone {n : ℕ} {h₀ h : Heap ζ ε} {refs : List ℕ} (hrefs : refs.Nodup)
    (hnew : ∀ ref ∈ refs, n ≤ ref) (f : ZoneObject ζ ε → ZoneObject ζ ε) (hkept : Kept n h₀ h) :
    (Persist.forEach refs fun ref ↦ modifyZone ref f).returns (fun _ t ↦ Kept n h₀ t)
      (fun _ t ↦ Kept n h₀ t ∧ ∀ ref ∈ refs, t.zones ref = f (h.zones ref)) h := by
  refine Persist.returns_mono (Persist.returns_forEach (fun done t ↦ Kept n h₀ t ∧
    (∀ ref ∈ done, t.zones ref = f (h.zones ref)) ∧ ∀ ref, ref ∉ done → t.zones ref = h.zones ref)
    ⟨hkept, fun _ href ↦ absurd href List.not_mem_nil, fun _ _ ↦ rfl⟩ ?_) (fun _ _ ↦ id)
    fun _ t ht ↦ ⟨ht.1, ht.2.1⟩
  rintro done ref rest t rfl ⟨hkept, hdone, hrest⟩
  have hnot : ref ∉ done := fun hmem ↦
    (List.nodup_append.mp hrefs).2.2 ref hmem ref List.mem_cons_self rfl
  refine Persist.returns_mono (returns_modifyZone f (hnew ref (by simp)) hkept) (fun _ _ ↦ id) ?_
  rintro - u ⟨hkept', rfl⟩
  refine ⟨hkept', fun other hother ↦ ?_, fun other hother ↦ ?_⟩
  · rcases List.mem_append.mp hother with hother | hother
    · have hne : other ≠ ref := fun heq ↦ hnot (heq ▸ hother)
      exact (t.zones_modify_of_ne f hne).trans (hdone other hother)
    · rw [List.mem_singleton.mp hother]
      exact (t.zones_modify_self ref f).trans (congrArg f (hrest ref hnot))
  · rw [List.mem_append, List.mem_singleton, not_or] at hother
    exact (t.zones_modify_of_ne f hother.2).trans (hrest other hother.1)

/-! ## The dictionaries -/

section Dictionaries

variable (r : Reading ζ ε τ)

def nameOf (ecu : ε) : String := (r.ecu ecu).name

def idOf (zone : ZoneObject ζ ε) : String := (r.zone zone.fields).id

/-- Zones and ECUs have names, each its own. -/
structure Named (zones : List (ZoneObject ζ ε)) : Prop where
  zoneId : ∀ zone ∈ zones, zoneId r zone = .ok (idOf r zone)
  ecuName : ∀ ecu ∈ zones.flatMap ZoneObject.ecus, ecuName r ecu = .ok (nameOf r ecu)
  zoneIds : (zones.map (idOf r)).Nodup
  ecuNames : ((zones.flatMap ZoneObject.ecus).map (nameOf r)).Nodup

variable {r} {zones : List (ZoneObject ζ ε)}

theorem allEcus_eq (h : Named r zones) : ∃ ecus, allEcus r zones = .ok ecus ∧
    ecus.entries = (zones.flatMap ZoneObject.ecus).map fun ecu ↦ (nameOf r ecu, ecu) := by
  have hloop : allEcus r zones =
      .ok (Dict.ofPairs ((zones.flatMap ZoneObject.ecus).map fun ecu ↦ (nameOf r ecu, ecu))) := by
    rw [Dict.ofPairs, List.foldl_map, List.foldl_flatMap]
    refine foldlM_eq_ok_foldl (fun ecus zone hzone ↦ ?_) _
    rw [h.zoneId zone hzone]
    refine foldlM_eq_ok_foldl (fun ecus ecu hecu ↦ ?_) _
    rw [h.ecuName ecu (List.mem_flatMap.mpr ⟨zone, hzone, hecu⟩)]
    rfl
  refine ⟨_, hloop, Dict.ofPairs_entries ?_⟩
  rw [List.map_map]
  exact h.ecuNames

theorem originalZoneByEcu_eq (h : Named r zones) : ∃ original,
    originalZoneByEcu r zones = .ok original ∧ ∀ zone ∈ zones, ∀ ecu ∈ zone.ecus,
      original.get? (nameOf r ecu) = some (idOf r zone) := by
  have hloop : originalZoneByEcu r zones = .ok (Dict.ofPairs
      (zones.flatMap fun zone ↦ zone.ecus.map fun ecu ↦ (nameOf r ecu, idOf r zone))) := by
    rw [Dict.ofPairs, List.foldl_flatMap]
    refine foldlM_eq_ok_foldl (fun mapping zone hzone ↦ ?_) _
    rw [List.foldl_map]
    refine foldlM_eq_ok_foldl (fun mapping ecu hecu ↦ ?_) _
    rw [h.zoneId zone hzone, h.ecuName ecu (List.mem_flatMap.mpr ⟨zone, hzone, hecu⟩)]
    rfl
  refine ⟨_, hloop, fun zone hzone ecu hecu ↦ ?_⟩
  rw [Dict.get?_eq_some_iff, Dict.ofPairs_entries]
  · exact List.mem_flatMap.mpr ⟨zone, hzone, List.mem_map_of_mem hecu⟩
  · have hnames := h.ecuNames
    rw [List.map_flatMap] at hnames ⊢
    simpa only [List.map_map, Function.comp_def] using hnames

theorem zoneIndex_eq {refs : List ℕ} {t : Heap ζ ε}
    (hid : ∀ ref ∈ refs, zoneId r (t.zones ref) = .ok (idOf r (t.zones ref)))
    (hnodup : (refs.map fun ref ↦ idOf r (t.zones ref)).Nodup) : ∃ index,
    zoneIndex r (refs.map fun ref ↦ (ref, t.zones ref)) = .ok index ∧
      ∀ name ref, index.get? name = some ref ↔ ref ∈ refs ∧ idOf r (t.zones ref) = name := by
  have hloop : zoneIndex r (refs.map fun ref ↦ (ref, t.zones ref)) =
      .ok (Dict.ofPairs (refs.map fun ref ↦ (idOf r (t.zones ref), ref))) := by
    rw [zoneIndex, List.foldlM_map, Dict.ofPairs, List.foldl_map]
    refine foldlM_eq_ok_foldl (fun index ref href ↦ ?_) _
    rw [hid ref href]
    rfl
  refine ⟨_, hloop, fun name ref ↦ ?_⟩
  rw [Dict.get?_eq_some_iff, Dict.ofPairs_entries]
  · rw [List.mem_map]
    constructor
    · rintro ⟨other, hother, heq⟩
      obtain ⟨rfl, rfl⟩ := Prod.mk.inj heq
      exact ⟨hother, rfl⟩
    · rintro ⟨href, rfl⟩
      exact ⟨ref, href, rfl⟩
  · rw [List.map_map]
    exact hnodup

end Dictionaries

/-! ## Placing the ECUs -/

section Placing

variable (r : Reading ζ ε τ)

/-- The copies behind the first placements: an ECU is at the end of the list of its zone. -/
structure Placed (n : ℕ) (h₀ u : Heap ζ ε) (copies : List ℕ) (done : List ((String × ε) × String))
    (t : Heap ζ ε) : Prop where
  kept : Kept n h₀ t
  known : ∀ p ∈ done, ∃ ref ∈ copies, idOf r (u.zones ref) = p.2
  fields : ∀ ref ∈ copies, (t.zones ref).fields = (u.zones ref).fields
  ecus : ∀ ref ∈ copies, (t.zones ref).ecus = (u.zones ref).ecus ++
    (done.filter fun p ↦ p.2 = idOf r (u.zones ref)).map fun p ↦ p.1.2

/-- An ECU is assigned to a zone that does not exist. -/
def UnknownZone (u : Heap ζ ε) (copies : List ℕ) (placements : List ((String × ε) × String))
    (e : PyError) : Prop :=
  ∃ p ∈ placements, (∀ ref ∈ copies, idOf r (u.zones ref) ≠ p.2) ∧
    e = .runtimeError ("Scenario assigns " ++ p.1.1 ++ " to unknown zone " ++ p.2)

variable {r} {n : ℕ} {h₀ u t : Heap ζ ε} {copies : List ℕ}
  {done placements : List ((String × ε) × String)}

theorem Placed.append (h : Placed r n h₀ u copies done t)
    (hids : (copies.map fun ref ↦ idOf r (u.zones ref)).Nodup) {p : (String × ε) × String} {ref : ℕ}
    (href : ref ∈ copies) (hnew : n ≤ ref) (hid : idOf r (u.zones ref) = p.2) :
    Placed r n h₀ u copies (done ++ [p])
      (t.modify ref fun zone ↦ { zone with ecus := zone.ecus ++ [p.1.2] }) where
  kept other hother :=
    (t.zones_modify_of_ne _ (hother.trans_le hnew).ne).trans (h.kept other hother)
  known q hq := by
    rcases List.mem_append.mp hq with hq | hq
    · exact h.known q hq
    · rw [List.mem_singleton.mp hq]
      exact ⟨ref, href, hid⟩
  fields other hother := by
    by_cases heq : other = ref
    · rw [heq, Heap.zones_modify_self]
      exact h.fields ref href
    · rw [Heap.zones_modify_of_ne _ _ heq]
      exact h.fields other hother
  ecus other hother := by
    rw [List.filter_append, List.map_append, ← List.append_assoc, ← h.ecus other hother]
    by_cases heq : other = ref
    · subst heq
      rw [Heap.zones_modify_self, hid]
      simp
    · have hne : p.2 ≠ idOf r (u.zones other) := by
        rw [← hid]
        exact fun hsame ↦ heq (List.inj_on_of_nodup_map hids hother href hsame.symm)
      rw [Heap.zones_modify_of_ne _ _ heq]
      simp [hne]

/-- The loop places all ECUs, or raises at one that has no zone. -/
theorem wp_forEach_place {index : Dict String ℕ}
    (hindex : ∀ name ref, index.get? name = some ref ↔ ref ∈ copies ∧ idOf r (u.zones ref) = name)
    (hids : (copies.map fun ref ↦ idOf r (u.zones ref)).Nodup) (hnew : ∀ ref ∈ copies, n ≤ ref)
    (hkept : Kept n h₀ u) :
    (Persist.forEach placements (place index)).wp (fun _ t ↦ Kept n h₀ t) (fun result t ↦
      Kept n h₀ t ∧ ((∃ e, result = .error e ∧ UnknownZone r u copies placements e) ∨
        result = .ok () ∧ Placed r n h₀ u copies placements t)) u := by
  refine Persist.wp_forEach (fun done t ↦ Placed r n h₀ u copies done t) ?_ ?_
    fun t ht ↦ ⟨ht.kept, Or.inr ⟨rfl, ht⟩⟩
  · exact ⟨hkept, by simp, fun _ _ ↦ rfl, fun _ _ ↦ by simp⟩
  · rintro done p rest t rfl ht
    unfold place
    cases hget : index.get? p.2 with
    | none =>
        rw [Persist.wp_raise]
        refine ⟨ht.kept, Or.inl ⟨_, rfl, p, by simp, fun ref href hid ↦ ?_, rfl⟩⟩
        rw [(hindex p.2 ref).mpr ⟨href, hid⟩] at hget
        cases hget
    | some ref =>
        obtain ⟨href, hid⟩ := (hindex p.2 ref).mp hget
        have hplaced := ht.append hids href (hnew ref href) hid
        exact (Persist.wp_write _ _).mpr ⟨hplaced.kept, hplaced⟩

end Placing

/-! ## The compiled topology -/

def ecusOf (h : Heap ζ ε) (topology : TopologyObject τ) : List ε :=
  topology.zones.flatMap fun ref ↦ (h.zones ref).ecus

def fieldsOf (h : Heap ζ ε) (topology : TopologyObject τ) : List ζ :=
  topology.zones.map fun ref ↦ (h.zones ref).fields

/-- The zone of an ECU that is declared at `home`. -/
def assignedZone (r : Reading ζ ε τ) (assignments : Dict String String) (home : ZoneObject ζ ε)
    (ecu : ε) : String := (assignments.get? (nameOf r ecu)).getD (idOf r home)

/-- The compiled topology is valid, holds the same ECUs in their zones, and only differs in the
lists of ECUs and in empty zones that are dropped. -/
structure Preserved (r : Reading ζ ε τ) (scenario : Scenario ζ) (assignments : Dict String String)
    (topology : TopologyObject τ) (h : Heap ζ ε) (compiled : TopologyObject τ) (t : Heap ζ ε) :
    Prop where
  valid : (compiled.read r t).validate = .ok []
  other : compiled.other = topology.other
  ecus : (ecusOf t compiled).Perm (ecusOf h topology)
  zone : ∀ ref ∈ compiled.zones, ∀ ecu ∈ (t.zones ref).ecus, ∀ home ∈ topology.zones,
    ecu ∈ (h.zones home).ecus →
      idOf r (t.zones ref) = assignedZone r assignments (h.zones home) ecu
  fields : (fieldsOf t compiled).Sublist (fieldsOf h topology)
  keepEmpty : scenario.dropEmptyZones = false → fieldsOf t compiled = fieldsOf h topology
  dropEmpty : scenario.dropEmptyZones = true → ∀ ref ∈ compiled.zones, (t.zones ref).ecus ≠ []

/-- An ECU of the topology is assigned to a zone that the topology does not have. -/
def UnknownAssignment (r : Reading ζ ε τ) (assignments : Dict String String)
    (topology : TopologyObject τ) (h : Heap ζ ε) (e : PyError) : Prop :=
  ∃ ecu ∈ ecusOf h topology, ∃ zone, assignments.get? (nameOf r ecu) = some zone ∧
    (∀ ref ∈ topology.zones, idOf r (h.zones ref) ≠ zone) ∧
    e = .runtimeError ("Scenario assigns " ++ nameOf r ecu ++ " to unknown zone " ++ zone)

section Result

variable {r : Reading ζ ε τ} {scenario : Scenario ζ} {assignments : Dict String String}
  {topology : TopologyObject τ} {h : Heap ζ ε}

theorem ecus_read (r : Reading ζ ε τ) (topology : TopologyObject τ) (h : Heap ζ ε) :
    (topology.read r h).ecus = (ecusOf h topology).map r.ecu := by
  rw [VehicleTopology.ecus, TopologyObject.read, List.flatMap_map, ecusOf, List.map_flatMap]

theorem stripped_read (r : Reading ζ ε τ) (topology : TopologyObject τ) (h : Heap ζ ε) :
    (topology.read r h).zones.map ZoneEntry.stripped =
      (fieldsOf h topology).map fun fields ↦ (r.zone fields).stripped := by
  rw [TopologyObject.read, fieldsOf, List.map_map, List.map_map]
  rfl

theorem named_of_valid (hvalid : (topology.read r h).validate = .ok []) :
    Named r (topology.zones.map h.zones) := by
  have hwell := wellDeclared_of_validate hvalid
  have hecus : (topology.zones.map h.zones).flatMap ZoneObject.ecus = ecusOf h topology := by
    rw [List.flatMap_map, ecusOf]
  refine ⟨fun zone hzone ↦ ?_, fun ecu hecu ↦ ?_, ?_, ?_⟩
  · obtain ⟨ref, href, rfl⟩ := List.mem_map.mp hzone
    have hcomplete := (hwell.zone_complete _ (List.mem_map_of_mem href)).1
    rw [ScenarioRunner.zoneId]
    exact congrArg (required "zone_id") hcomplete
  · rw [hecus] at hecu
    have hmem : r.ecu ecu ∈ (topology.read r h).ecus := by
      rw [ecus_read]
      exact List.mem_map_of_mem hecu
    rw [ScenarioRunner.ecuName]
    exact congrArg (required "ecu_name") (hwell.ecu_complete _ hmem).1
  · have hids := hwell.zoneIds
    rw [TopologyObject.read, List.map_map] at hids
    rw [List.map_map]
    exact hids
  · have hnames := hwell.names
    rw [ecus_read, List.map_map] at hnames
    rw [hecus]
    exact hnames

theorem idOf_congr {zone other : ZoneObject ζ ε} (h : zone.fields = other.fields) :
    idOf r zone = idOf r other := by
  rw [idOf, idOf, h]

/-- Zones with the fields of the topology have its ids. -/
theorem map_idOf {u : Heap ζ ε} {copies : List ℕ}
    (hfields : copies.map (fun ref ↦ (u.zones ref).fields) = fieldsOf h topology) :
    (copies.map fun ref ↦ idOf r (u.zones ref)) =
      topology.zones.map fun ref ↦ idOf r (h.zones ref) := by
  have hmap := congrArg (List.map fun fields ↦ (r.zone fields).id) hfields
  rw [fieldsOf, List.map_map, List.map_map] at hmap
  exact hmap

theorem nodup_idOf {u : Heap ζ ε} {copies : List ℕ} (hnamed : Named r (topology.zones.map h.zones))
    (hfields : copies.map (fun ref ↦ (u.zones ref).fields) = fieldsOf h topology) :
    (copies.map fun ref ↦ idOf r (u.zones ref)).Nodup := by
  have hzoneIds := hnamed.zoneIds
  rw [List.map_map] at hzoneIds
  rw [map_idOf hfields]
  exact hzoneIds

/-- Zones that are left out because they are empty. -/
theorem flatMap_filter_of_nil {α β : Type} {f : α → List β} {p : α → Bool} {xs : List α}
    (hp : ∀ x ∈ xs, p x = false → f x = []) : (xs.filter p).flatMap f = xs.flatMap f := by
  induction xs with
  | nil => rfl
  | cons x xs ih =>
      have hrest := ih fun y hy ↦ hp y (List.mem_cons_of_mem x hy)
      cases hx : p x with
      | true => rw [List.filter_cons_of_pos hx, List.flatMap_cons, List.flatMap_cons, hrest]
      | false =>
          rw [List.filter_cons_of_neg (by simp [hx]), hrest, List.flatMap_cons,
            hp x List.mem_cons_self hx, List.nil_append]

/-- The placements of all ECUs. -/
def placementsOf (r : Reading ζ ε τ) (target : ε → String) (ecus : List ε) :
    List ((String × ε) × String) :=
  ecus.map fun ecu ↦ ((nameOf r ecu, ecu), target ecu)

theorem filter_placementsOf (target : ε → String) (ecus : List ε) (zone : String) :
    ((placementsOf r target ecus).filter fun p ↦ p.2 = zone).map (fun p ↦ p.1.2) =
      ecus.filter fun ecu ↦ target ecu = zone := by
  rw [placementsOf, List.filter_map, List.map_map]
  exact List.map_id' _

section Compiled

variable {u t v : Heap ζ ε} {copies : List ℕ} {n : ℕ} {target : ε → String}

theorem ecus_sorted (hempty : ∀ ref ∈ copies, (u.zones ref).ecus = [])
    (hplaced : Placed r n h u copies (placementsOf r target (ecusOf h topology)) t)
    (hsorted : ∀ ref ∈ copies, v.zones ref = { t.zones ref with ecus := sortEcus r (t.zones ref).ecus })
    {ref : ℕ} (href : ref ∈ copies) : (v.zones ref).ecus.Perm
      ((ecusOf h topology).filter fun ecu ↦ target ecu = idOf r (u.zones ref)) := by
  rw [hsorted ref href, ← filter_placementsOf (r := r)]
  refine (List.perm_insertionSort _ _).trans ?_
  rw [hplaced.ecus ref href, hempty ref href, List.nil_append]

/-- The copies hold the ECUs of the topology. -/
theorem ecus_copies (hids : (copies.map fun ref ↦ idOf r (u.zones ref)).Nodup)
    (hempty : ∀ ref ∈ copies, (u.zones ref).ecus = [])
    (hplaced : Placed r n h u copies (placementsOf r target (ecusOf h topology)) t)
    (hsorted : ∀ ref ∈ copies, v.zones ref = { t.zones ref with ecus := sortEcus r (t.zones ref).ecus }) :
    (copies.flatMap fun ref ↦ (v.zones ref).ecus).Perm (ecusOf h topology) := by
  have hbins : (copies.flatMap fun ref ↦ (ecusOf h topology).filter fun ecu ↦
      target ecu = idOf r (u.zones ref)).Perm (ecusOf h topology) := by
    have hperm := perm_flatMap_filter target hids (ecusOf h topology) fun ecu hecu ↦ by
      obtain ⟨ref, href, hid⟩ := hplaced.known ((nameOf r ecu, ecu), target ecu)
        (List.mem_map_of_mem hecu)
      exact List.mem_map.mpr ⟨ref, href, hid⟩
    rwa [List.flatMap_map] at hperm
  refine List.Perm.trans (List.Perm.flatMap_left copies fun ref href ↦ ?_) hbins
  exact ecus_sorted hempty hplaced hsorted href

theorem preserved_of_placed (hvalid : (topology.read r h).validate = .ok [])
    (hfields : copies.map (fun ref ↦ (u.zones ref).fields) = fieldsOf h topology)
    (hempty : ∀ ref ∈ copies, (u.zones ref).ecus = [])
    (hplaced : Placed r n h u copies (placementsOf r target (ecusOf h topology)) t)
    (htarget : ∀ home ∈ topology.zones, ∀ ecu ∈ (h.zones home).ecus,
      target ecu = assignedZone r assignments (h.zones home) ecu)
    (hsorted : ∀ ref ∈ copies,
      v.zones ref = { t.zones ref with ecus := sortEcus r (t.zones ref).ecus }) :
    Preserved r scenario assignments topology h
      { topology with
        zones := copies.filter fun ref ↦
          !scenario.dropEmptyZones || !(v.zones ref).ecus.isEmpty } v := by
  have hfield : ∀ ref ∈ copies, (v.zones ref).fields = (u.zones ref).fields := fun ref href ↦ by
    rw [hsorted ref href]
    exact hplaced.fields ref href
  have hcopies : copies.map (fun ref ↦ (v.zones ref).fields) = fieldsOf h topology :=
    (List.map_congr_left hfield).trans hfields
  have hids := nodup_idOf (named_of_valid hvalid) hfields
  set kept := copies.filter fun ref ↦ !scenario.dropEmptyZones || !(v.zones ref).ecus.isEmpty
    with hkept
  have hsub : kept ⊆ copies := List.filter_sublist.subset
  have hsublist : (kept.map fun ref ↦ (v.zones ref).fields).Sublist (fieldsOf h topology) := by
    rw [← hcopies]
    exact (List.filter_sublist).map _
  have hecus : (kept.flatMap fun ref ↦ (v.zones ref).ecus).Perm (ecusOf h topology) := by
    have hdropped : (kept.flatMap fun ref ↦ (v.zones ref).ecus) =
        copies.flatMap fun ref ↦ (v.zones ref).ecus := by
      refine flatMap_filter_of_nil fun ref _ hdrop ↦ ?_
      rw [Bool.or_eq_false_iff, Bool.not_eq_false'] at hdrop
      exact List.isEmpty_iff.mp (by simpa using hdrop.2)
    rw [hdropped]
    exact ecus_copies hids hempty hplaced hsorted
  refine ⟨?_, rfl, hecus, fun ref href ecu hecu home hhome hin ↦ ?_, hsublist, fun hkeep ↦ ?_,
    fun hdrop ref href ↦ ?_⟩
  · refine (validate_eq_nil_iff _).mpr (((validate_eq_nil_iff _).mp hvalid).transfer ?_ ?_)
    · rw [stripped_read, stripped_read]
      exact hsublist.map _
    · rw [ecus_read, ecus_read]
      exact hecus.map _
  · have hmem := (ecus_sorted hempty hplaced hsorted (hsub href)).mem_iff.mp hecu
    have htargetEq : target ecu = idOf r (u.zones ref) := by simpa using (List.mem_filter.mp hmem).2
    rw [idOf_congr (hfield ref (hsub href)), ← htargetEq]
    exact htarget home hhome ecu hin
  · have hall : kept = copies := by
      rw [hkept, List.filter_eq_self]
      exact fun ref _ ↦ by simp [hkeep]
    rw [fieldsOf]
    simp only [hall]
    exact hcopies
  · have hkeeps := (List.mem_filter.mp href).2
    intro hnil
    simp [hdrop, hnil] at hkeeps

end Compiled

theorem placements_eq (assignments : Dict String String) {ecus : Dict String ε}
    {original : Dict String String}
    (hecus : ecus.entries = (ecusOf h topology).map fun ecu ↦ (nameOf r ecu, ecu))
    (horiginal : ∀ home ∈ topology.zones, ∀ ecu ∈ (h.zones home).ecus,
      original.get? (nameOf r ecu) = some (idOf r (h.zones home))) :
    ∃ target : ε → String,
      (ecus.entries.mapM fun ecu ↦ do
        let target ← targetZone assignments original ecu.1
        return (ecu, target)) = .ok (placementsOf r target (ecusOf h topology)) ∧
      ∀ home ∈ topology.zones, ∀ ecu ∈ (h.zones home).ecus,
        target ecu = assignedZone r assignments (h.zones home) ecu := by
  let target : ε → String := fun ecu ↦
    (assignments.get? (nameOf r ecu)).getD ((original.get? (nameOf r ecu)).getD "")
  have htarget : ∀ home ∈ topology.zones, ∀ ecu ∈ (h.zones home).ecus,
      target ecu = assignedZone r assignments (h.zones home) ecu := by
    intro home hhome ecu hecu
    simp only [target, horiginal home hhome ecu hecu, assignedZone, Option.getD_some]
  refine ⟨target, ?_, htarget⟩
  rw [hecus, List.mapM_map]
  refine mapM_eq_ok_map fun ecu hecu ↦ ?_
  obtain ⟨home, hhome, hin⟩ := List.mem_flatMap.mp hecu
  have hzone : targetZone assignments original (nameOf r ecu) = .ok (target ecu) := by
    rw [htarget home hhome ecu hin, targetZone, horiginal home hhome ecu hin]
    rfl
  simp only [Function.comp_apply, hzone]
  rfl

/-- Only an assignment can lead to a zone that does not exist. -/
theorem unknownAssignment_of_unknownZone {u : Heap ζ ε} {copies : List ℕ} {target : ε → String}
    {e : PyError} (hfields : copies.map (fun ref ↦ (u.zones ref).fields) = fieldsOf h topology)
    (htarget : ∀ home ∈ topology.zones, ∀ ecu ∈ (h.zones home).ecus,
      target ecu = assignedZone r assignments (h.zones home) ecu)
    (hunknown : UnknownZone r u copies (placementsOf r target (ecusOf h topology)) e) :
    UnknownAssignment r assignments topology h e := by
  obtain ⟨p, hp, hnone, rfl⟩ := hunknown
  obtain ⟨ecu, hecu, rfl⟩ := List.mem_map.mp hp
  obtain ⟨home, hhome, hin⟩ := List.mem_flatMap.mp hecu
  have hids : ∀ ref ∈ topology.zones, idOf r (h.zones ref) ≠ target ecu := by
    intro ref href heq
    have hmem : idOf r (h.zones ref) ∈ copies.map fun ref ↦ idOf r (u.zones ref) := by
      rw [map_idOf hfields]
      exact List.mem_map_of_mem href
    obtain ⟨copy, hcopy, hsame⟩ := List.mem_map.mp hmem
    exact hnone copy hcopy (hsame.trans heq)
  have hzone := htarget home hhome ecu hin
  cases hassigned : assignments.get? (nameOf r ecu) with
  | none =>
      rw [assignedZone, hassigned, Option.getD_none] at hzone
      exact absurd hzone.symm (hids home hhome)
  | some zone =>
      rw [assignedZone, hassigned, Option.getD_some] at hzone
      rw [hzone] at hids
      exact ⟨ecu, hecu, zone, hassigned, hids, by rw [hzone]⟩

/-- The mutation on a topology without errors. -/
theorem wp_applyTopologyMutations {profile : Dict String String}
    (hrefs : ∀ ref ∈ topology.zones, ref < h.next)
    (hprofile : topologyProfile scenario.topologyMode = .ok profile)
    (hoverrides : scenario.zoneOverrides = []) (hvalid : (topology.read r h).validate = .ok []) :
    (applyTopologyMutations r scenario topology).wp (fun _ t ↦ Kept h.next h t)
      (fun result t ↦ Kept h.next h t ∧
        ((∃ e, result = .error e ∧
          UnknownAssignment r (zoneAssignments scenario profile) topology h e) ∨
        ∃ compiled, result = .ok compiled ∧
          Preserved r scenario (zoneAssignments scenario profile) topology h compiled t)) h := by
  have hnamed := named_of_valid hvalid
  have hall : (topology.zones.map h.zones).flatMap ZoneObject.ecus = ecusOf h topology := by
    rw [List.flatMap_map, ecusOf]
  obtain ⟨ecus, hecus, hentries⟩ := allEcus_eq hnamed
  obtain ⟨original, horiginal, hhomes⟩ := originalZoneByEcu_eq hnamed
  rw [hall] at hentries
  obtain ⟨target, hplacements, htarget⟩ := placements_eq
    (zoneAssignments scenario profile) hentries fun home hhome ecu hecu ↦
      hhomes (h.zones home) (List.mem_map_of_mem hhome) ecu hecu
  unfold applyTopologyMutations
  -- the copies
  refine Persist.wp_bind_of_returns
    (returns_copyZones topology.zones h hrefs le_rfl fun _ _ ↦ rfl) ?_
  rintro copies s ⟨hrange, hkept, -, hcopies⟩
  have hnew : ∀ ref ∈ copies, h.next ≤ ref := fun ref href ↦ by
    rw [hrange, List.mem_range'_1] at href
    exact href.1
  have hnodup : copies.Nodup := hrange ▸ List.nodup_range'
  rw [hprofile, Persist.ofExcept_ok_bind, Persist.wp_bind, Persist.wp_reads]
  dsimp only
  rw [hcopies, hecus, Persist.ofExcept_ok_bind]
  -- their lists of ECUs
  refine Persist.wp_bind_of_returns (returns_forEach_modifyZone hnodup hnew _ hkept) ?_
  rintro - u ⟨hkept, hemptied⟩
  have hold : topology.zones.map u.zones = topology.zones.map h.zones :=
    List.map_congr_left fun ref href ↦ hkept ref (hrefs ref href)
  rw [Persist.wp_bind, Persist.wp_reads]
  dsimp only
  rw [hold, horiginal, Persist.ofExcept_ok_bind, hplacements, Persist.ofExcept_ok_bind,
    Persist.wp_bind, Persist.wp_reads]
  dsimp only
  have hfields : copies.map (fun ref ↦ (u.zones ref).fields) = fieldsOf h topology := by
    have hmap := congrArg (List.map ZoneObject.fields) hcopies
    rw [List.map_map, List.map_map] at hmap
    rw [fieldsOf, List.map_congr_left fun ref href ↦ congrArg ZoneObject.fields (hemptied ref href)]
    exact hmap
  have hids := nodup_idOf hnamed hfields
  have hzoneId : ∀ ref ∈ copies, zoneId r (u.zones ref) = .ok (idOf r (u.zones ref)) := by
    intro ref href
    have hmem : (u.zones ref).fields ∈ fieldsOf h topology := by
      rw [← hfields]
      exact List.mem_map_of_mem href
    obtain ⟨home, hhome, heq⟩ := List.mem_map.mp hmem
    rw [idOf_congr heq.symm, zoneId, ← heq]
    exact hnamed.zoneId _ (List.mem_map_of_mem hhome)
  obtain ⟨index, hindexed, hindex⟩ := zoneIndex_eq hzoneId hids
  rw [hindexed, Persist.ofExcept_ok_bind, Persist.wp_bind]
  -- the ECUs in their zones
  refine Persist.wp_mono (wp_forEach_place hindex hids hnew hkept) (fun _ _ ↦ id) ?_
  rintro result t ⟨hkept, ⟨e, rfl, hunknown⟩ | ⟨rfl, hplaced⟩⟩
  · exact ⟨hkept, Or.inl ⟨e, rfl, unknownAssignment_of_unknownZone hfields htarget hunknown⟩⟩
  · dsimp only
    rw [hoverrides, Persist.forEach, Persist.wp_bind, Persist.wp_pure]
    dsimp only
    refine Persist.wp_bind_of_returns (returns_forEach_modifyZone hnodup hnew _ hkept) ?_
    rintro - v ⟨hkept, hsorted⟩
    rw [Persist.wp_bind, Persist.wp_reads]
    dsimp only
    rw [Persist.wp_pure]
    refine ⟨hkept, Or.inr ⟨_, rfl, ?_⟩⟩
    exact preserved_of_placed hvalid hfields
      (fun ref href ↦ congrArg ZoneObject.ecus (hemptied ref href)) hplaced htarget hsorted

end Result

/-- The zones of the topology are objects of the heap. -/
def Holds (h : Heap ζ ε) (topology : TopologyObject τ) : Prop := ∀ ref ∈ topology.zones, ref < h.next

end ScenarioRunner

open ScenarioRunner

/-- For every topology without errors and every scenario with a known mode and without zone
overrides: the mutation leaves all zones of the input alone, and it raises because an ECU of the
topology is assigned to a zone that does not exist, or returns a valid topology with the same
ECUs in their zones. -/
theorem scenario_preserves_vehicle {ζ ε τ : Type} (r : Reading ζ ε τ) (scenario : Scenario ζ)
    (topology : TopologyObject τ) (h : Heap ζ ε) (hholds : Holds h topology)
    (hmode : scenario.topologyMode ∈ topologyModeDefinitions.keys)
    (hoverrides : scenario.zoneOverrides = []) (hvalid : (topology.read r h).validate = .ok []) :
    (∀ ref < h.next, ((applyTopologyMutations r scenario topology).store h).zones ref = h.zones ref) ∧
    topology.read r ((applyTopologyMutations r scenario topology).store h) = topology.read r h ∧
    ∃ profile, topologyModeDefinitions.get? scenario.topologyMode = some profile ∧
      ((∃ e, (applyTopologyMutations r scenario topology h).result = .error e ∧
          UnknownAssignment r (zoneAssignments scenario profile) topology h e) ∨
        ∃ compiled, (applyTopologyMutations r scenario topology h).result = .ok compiled ∧
          Preserved r scenario (zoneAssignments scenario profile) topology h compiled
            ((applyTopologyMutations r scenario topology).store h)) := by
  rw [← Dict.isSome_get?, Option.isSome_iff_exists] at hmode
  obtain ⟨profile, hprofile⟩ := hmode
  have hprofile' : topologyProfile scenario.topologyMode = .ok profile := by
    rw [topologyProfile, hprofile]
  obtain ⟨-, hkept, hresult⟩ := wp_applyTopologyMutations hholds hprofile' hoverrides hvalid
  refine ⟨hkept, ?_, profile, hprofile, hresult⟩
  have hzones : topology.zones.map ((applyTopologyMutations r scenario topology).store h).zones =
      topology.zones.map h.zones := List.map_congr_left fun ref href ↦ hkept ref (hholds ref href)
  have hread := congrArg (List.map fun zone : ZoneObject ζ ε ↦
    { r.zone zone.fields with ecus := zone.ecus.map r.ecu }) hzones
  rw [List.map_map, List.map_map] at hread
  rw [TopologyObject.read, TopologyObject.read]
  exact congrArg (VehicleTopology.mk (r.services topology.other)) hread

/-- The demo vehicle in memory. -/
def demoHeap : Heap ZoneEntry EcuEntry where
  zones ref :=
    let zone := (demoTopology.zones[ref]?).getD (demoZone "" "" "" 0 [])
    { fields := zone, ecus := zone.ecus }
  next := 3

def demoReading : Reading ZoneEntry EcuEntry (List ℤ) := ⟨id, id, id⟩

/-- The cluster ECU moves into the body zone, and its own zone is dropped. -/
theorem scenario_preserves_vehicle_demo : ∃ compiled,
    (applyTopologyMutations demoReading { topologyMode := "body_two_ecus" }
      ⟨demoServices, [0, 1, 2]⟩ demoHeap).result = .ok compiled ∧
    Preserved demoReading { topologyMode := "body_two_ecus" }
      (@zoneAssignments ZoneEntry { topologyMode := "body_two_ecus" }
        (Dict.ofPairs [("Cluster ECU", "body_zone")]))
      ⟨demoServices, [0, 1, 2]⟩ demoHeap compiled
      ((applyTopologyMutations demoReading { topologyMode := "body_two_ecus" }
        ⟨demoServices, [0, 1, 2]⟩).store demoHeap) := by
  have hvalid : (TopologyObject.read demoReading demoHeap ⟨demoServices, [0, 1, 2]⟩).validate =
      .ok [] := validate_eq_of_toOption (by decide +kernel)
  obtain ⟨-, -, profile, hprofile, hresult⟩ := scenario_preserves_vehicle demoReading
    { topologyMode := "body_two_ecus" } ⟨demoServices, [0, 1, 2]⟩ demoHeap (by unfold Holds; decide)
    (by decide) rfl hvalid
  obtain rfl := Option.some.inj hprofile
  rcases hresult with ⟨e, herror, -⟩ | hok
  · have hsome : (applyTopologyMutations demoReading { topologyMode := "body_two_ecus" }
        ⟨demoServices, [0, 1, 2]⟩ demoHeap).result.toOption.isSome = true := by decide +kernel
    rw [herror] at hsome
    cases hsome
  · exact hok

end VehicleOta.Tcu
