import VehicleOta.Tcu.CampaignResult
import VehicleOta.Tcu.SkippedTargets
import VehicleOta.Tcu.TrustedImages

/-!
# Runs that succeed

What a run of `main` with the exit code 0 has done to the vehicle.
-/

namespace VehicleOta.Tcu

open CrashLogic TraceLogic

/-! ## Executions -/

namespace Execution

/-- Nothing but a failure can hold up an ECU of the order. -/
structure Supplied (x : Execution) : Prop where
  eligible : ∀ n ∈ x.updateOrder, n ∈ eligibleNames x.eligibleUpdates
  dependencies : ∀ n ∈ x.updateOrder, ∀ d ∈ x.dependencies n,
    d ∈ x.updateOrder ∨ d ∈ x.initial.completedOrSatisfied

/-- All ECUs so far are flashed. -/
structure Flawless (x : Execution) (done : List String) (s : RunState) : Prop where
  results : resultsOf s.log = done.map fun n ↦ (n, Status.flashed)
  failed : s.failedEcus = []
  skipped : s.skippedEcus = []
  satisfied : x.initial.completedOrSatisfied ⊆ s.completedOrSatisfied

variable {x : Execution} {s : RunState} {done rest : List String} {n : String}

theorem Flawless.blockingDependencies (h : x.Flawless done s) (hx : x.Supplied)
    (hn : n ∈ x.updateOrder) : x.blockingDependencies s n = [] := by
  rw [Execution.blockingDependencies, List.filter_eq_nil_iff]
  intro d hd
  rw [h.failed, h.skipped]
  rcases hx.dependencies n hn d hd with horder | hsatisfied
  · simp [horder]
  · simp [h.satisfied hsatisfied]

/-- One ECU is flashed, or there is a failure. -/
theorem Flawless.processEcu (h : x.Flawless done s) (hx : x.Supplied) (hn : n ∈ x.updateOrder)
    {t : RunState} (ht : x.processEcu s n = .proceed t) :
    t.failedEcus ≠ [] ∨ x.Flawless (done ++ [n]) t := by
  have hfree := h.blockingDependencies hx hn
  have hflash : x.processEcu s n = x.flashEcu s n := by
    rcases x.processEcu_cases s n with ⟨aborts, -, ⟨hblocked, -⟩ | ⟨-, hnot, -⟩⟩ |
      ⟨-, hnot, -⟩ | ⟨-, -, heq⟩
    · exact absurd hfree hblocked
    · exact absurd (hx.eligible n hn) hnot
    · exact absurd (hx.eligible n hn) hnot
    · exact heq
  rw [hflash] at ht
  rcases x.flashEcu_cases s n with ⟨e, u, heq, -⟩ | ⟨-, heq⟩ | ⟨-, heq⟩
  · cases heq.symm.trans ht
  · obtain rfl := Verdict.proceed.inj (heq.symm.trans ht)
    refine Or.inr ⟨?_, h.failed, h.skipped, fun d hd ↦ List.mem_append_left _ (h.satisfied hd)⟩
    rw [resultsOf_sentLog, h.results, List.map_append]
    rfl
  · obtain rfl := Verdict.proceed.inj (heq.symm.trans ht)
    exact Or.inl (List.append_ne_nil_of_right_ne_nil _ (List.cons_ne_nil _ _))

/-- A whole loop; one that ends early does not return `True`. -/
theorem runLoop_flawless (hx : x.Supplied) (htally : Tally s)
    (h : s.failedEcus ≠ [] ∨ x.Flawless done s) (horder : x.updateOrder = done ++ rest) :
    (∀ t, x.runLoop rest s = .proceed t → t.failedEcus ≠ [] ∨ x.Flawless x.updateOrder t) ∧
      ∀ t b, x.runLoop rest s = .stop t (.ok b) → b = false := by
  induction rest generalizing done s with
  | nil =>
      refine ⟨fun t ht ↦ ?_, fun t b ht ↦ Verdict.noConfusion ht⟩
      obtain rfl := Verdict.proceed.inj ht
      rw [List.append_nil] at horder
      rwa [horder]
  | cons n rest ih =>
      have hn : n ∈ x.updateOrder := by rw [horder]; simp
      obtain ⟨hproceed, hstop⟩ := @Tally.processEcu x s n htally
      unfold Execution.runLoop
      cases hstep : x.processEcu s n with
      | stop u returned =>
          refine ⟨fun t ht ↦ Verdict.noConfusion ht, fun t b ht ↦ ?_⟩
          obtain ⟨rfl, rfl⟩ := Verdict.stop.inj ht
          exact (hstop u b hstep).1
      | proceed u =>
          obtain ⟨htally', hprefix⟩ := hproceed u hstep
          refine @ih u (done ++ [n]) htally' ?_ (by simpa using horder)
          rcases h with hfailed | hflawless
          · left
            intro hnone
            rw [hnone, List.prefix_nil] at hprefix
            exact hfailed hprefix
          · exact hflawless.processEcu hx hn hstep

/-- `execute` returns `True` only where every ECU of the order is flashed. -/
theorem results_of_success (hx : x.Supplied) (h : x.execute.2 = .ok true) :
    resultsOf x.execute.1 = x.updateOrder.map fun n ↦ (n, Status.flashed) := by
  have hinitial : x.Flawless [] x.initial := ⟨rfl, rfl, rfl, fun _ hd ↦ hd⟩
  obtain ⟨hproceed, hstop⟩ := runLoop_flawless hx (tally_initial x) (Or.inr hinitial)
    (List.nil_append _).symm
  unfold execute at h ⊢
  split at h
  · cases h
  · rename_i hcomplete
    rw [if_neg hcomplete]
    cases hloop : x.runLoop x.updateOrder x.initial with
    | stop t returned =>
        rw [hloop] at h
        obtain rfl : returned = .ok true := h
        cases hstop t true hloop
    | proceed t =>
        rw [hloop] at h
        have hsuccess : t.failedEcus = [] := by
          have hboth := Except.ok.inj h
          rw [Bool.and_eq_true, List.isEmpty_iff] at hboth
          exact hboth.2
        exact ((hproceed t hloop).resolve_left (not_not.mpr hsuccess)).results

end Execution

/-! ## The validation -/

/-- The vehicle has an ECU of the name of the target, with its version. -/
def Runs (vehicle : Vehicle) (target : CampaignTarget) : Prop :=
  ∃ ecu ∈ vehicle.getAllEcus, ecu.ecuName = target.ecuName ∧
    versionEq ecu.currentVersion target.targetVersion = .ok true

namespace PostInstallValidator

variable {vehicle : Vehicle} {versions : Dict String String} {stores stores' : Stores}
  {campaign : Campaign}

theorem waitForExpectedVersions_mem {polls : List (Vehicle × Bool)}
    (h : waitForExpectedVersions versions polls = .ok (some vehicle)) :
    vehicle ∈ polls.map Prod.fst := by
  induction polls with
  | nil => cases h
  | cons poll polls ih =>
      obtain ⟨running, -, h⟩ := bind_eq_ok.mp h
      split at h
      · obtain rfl := Option.some.inj (Except.ok.inj h)
        exact List.mem_cons_self
      · split at h
        · obtain rfl := Option.some.inj (Except.ok.inj h)
          exact List.mem_cons_self
        · exact List.mem_cons_of_mem _ (ih h)

theorem validateTarget_true {name : String}
    (h : validateTarget vehicle versions name stores = (.ok true, stores')) :
    ∀ expected, versions.get? name = some expected → ∃ ecu ∈ vehicle.getAllEcus,
      ecu.ecuName = name ∧ versionEq ecu.currentVersion expected = .ok true := by
  intro expected hexpected
  unfold validateTarget at h
  dsimp only at h
  rw [hexpected] at h
  cases hecu : (Dict.ofPairs (vehicle.getAllEcus.map fun ecu ↦ (ecu.ecuName, ecu))).get? name with
  | none =>
      rw [hecu] at h
      cases h
  | some ecu =>
      rw [hecu] at h
      obtain ⟨ecu', hmem, heq⟩ := List.mem_map.mp (Dict.mem_of_get?_ofPairs hecu)
      obtain ⟨hname, rfl⟩ := Prod.mk.inj heq
      refine ⟨ecu', hmem, hname, ?_⟩
      dsimp only at h
      split at h
      · cases h
      · cases h
      · rename_i passed key hpassed _
        split at h
        · cases h
        · obtain rfl : passed = true := Except.ok.inj (Prod.mk.inj h).1
          exact hpassed

theorem validateTargets_true {names : List String}
    (h : validateTargets vehicle versions names stores = (.ok true, stores')) :
    ∀ name ∈ names, ∀ expected, versions.get? name = some expected →
      ∃ ecu ∈ vehicle.getAllEcus, ecu.ecuName = name ∧
        versionEq ecu.currentVersion expected = .ok true := by
  induction names generalizing stores stores' with
  | nil => exact List.forall_mem_nil _
  | cons first names ih =>
      unfold validateTargets at h
      split at h
      · cases h
      · rename_i passed between hfirst
        split at h
        · cases h
        · rename_i rest after hrest
          have hboth : passed = true ∧ rest = true := by
            simpa using Except.ok.inj (Prod.mk.inj h).1
          obtain ⟨rfl, rfl⟩ := hboth
          intro name hname
          rcases List.mem_cons.mp hname with rfl | hname
          · exact validateTarget_true hfirst
          · exact ih hrest name hname

/-- A validation that answers `True` has found all approved targets with their versions. -/
theorem runs_of_validate {polls : List (Vehicle × Bool)}
    (hnames : (campaign.targets.map CampaignTarget.ecuName).Nodup)
    (h : (validate campaign polls stores).1 = .ok (some true)) :
    ∃ found ∈ polls.map Prod.fst, ∀ target ∈ campaign.targets,
      target.ecuName ∈ validationTargetNames campaign → Runs found target := by
  unfold validate at h
  split at h
  · cases h
  · cases h
  · rename_i found hfound
    split at h
    · cases h
    · rename_i updated after hvalidate
      obtain rfl : updated = true := Option.some.inj (Except.ok.inj h)
      refine ⟨found, waitForExpectedVersions_mem hfound, fun target htarget hname ↦ ?_⟩
      apply validateTargets_true hvalidate
      · exact List.mem_mergeSort.mpr hname
      · rw [Dict.get?_eq_some_iff, targetVersions, Dict.ofPairs_entries]
        · refine List.mem_map.mpr ⟨target, List.mem_filter.mpr ⟨htarget, ?_⟩, rfl⟩
          exact decide_eq_true hname
        · rw [List.map_map]
          exact hnames.sublist (List.filter_sublist.map _)

end PostInstallValidator

/-! ## The names of the ECUs -/

/-- The names of the ECUs are different, and no text that `strip` changes. -/
structure Vehicle.Named (vehicle : Vehicle) : Prop where
  distinct : (vehicle.getAllEcus.map ECU.ecuName).Nodup
  stripped : ∀ ecu ∈ vehicle.getAllEcus, String.ofList (strip ecu.ecuName.toList) = ecu.ecuName
  nonempty : ∀ ecu ∈ vehicle.getAllEcus, ecu.ecuName ≠ ""

namespace FirmwareCompatibilityValidator

variable {manifest : Manifest} {files : String → Option Bytes} {requireDownloadedFiles : Bool}
  {campaign : Campaign} {targetNames : List String}

theorem foldlM_checkEcu_sublist {ecus : List ECU} {before eligible : List EligibleUpdate}
    (h : ecus.foldlM (checkEcu manifest files requireDownloadedFiles campaign targetNames) before =
      .ok eligible) :
    ∃ further, eligible = before ++ further ∧ (further.map EligibleUpdate.ecu).Sublist ecus := by
  induction ecus generalizing before with
  | nil =>
      obtain rfl := Except.ok.inj h
      exact ⟨[], (List.append_nil _).symm, List.nil_sublist _⟩
  | cons ecu ecus ih =>
      rw [List.foldlM_cons] at h
      obtain ⟨next, hnext, hrest⟩ := bind_eq_ok.mp h
      obtain ⟨further, rfl, hsub⟩ := ih hrest
      unfold checkEcu at hnext
      split at hnext
      · obtain rfl := Except.ok.inj hnext
        exact ⟨further, rfl, hsub.cons _⟩
      · obtain ⟨found, hfound, hnext⟩ := bind_eq_ok.mp hnext
        cases found with
        | none =>
            obtain rfl := Except.ok.inj hnext
            exact ⟨further, rfl, hsub.cons _⟩
        | some entry =>
            obtain rfl := Except.ok.inj hnext
            refine ⟨entry :: further, by rw [List.append_assoc, List.singleton_append], ?_⟩
            rw [List.map_cons, checkPackage_ecu hfound]
            exact hsub.cons_cons _

theorem nodup_eligibleNames {vehicle : Vehicle} {eligible : List EligibleUpdate}
    (hnamed : vehicle.Named)
    (h : validate manifest files requireDownloadedFiles campaign vehicle targetNames = .ok eligible) :
    (eligibleNames eligible).Nodup := by
  obtain ⟨_, rfl, hsub⟩ := foldlM_checkEcu_sublist h
  have hnames : eligibleNames eligible = (eligible.map EligibleUpdate.ecu).map ECU.ecuName := by
    rw [eligibleNames, List.map_map]
    rfl
  rw [hnames]
  exact hnamed.distinct.sublist (hsub.map _)

theorem selectedTargets_eq (h : ∀ n ∈ targetNames, String.ofList (strip n.toList) = n ∧ n ≠ "") :
    selectedTargets targetNames = targetNames := by
  have hmap : targetNames.map (fun name ↦ String.ofList (strip name.toList)) = targetNames :=
    (List.map_congr_left fun n hn ↦ (h n hn).1).trans (List.map_id _)
  rw [selectedTargets, hmap, List.filter_eq_self]
  exact fun n hn ↦ decide_eq_true (h n hn).2

end FirmwareCompatibilityValidator

namespace CompatibilityValidator

variable {resolver : DependencyPolicyResolver} {vehicle : Vehicle} {campaign decided : Campaign}

theorem foldlM_decideTarget_overall {targets : List CampaignTarget} {verdict final : Verdict}
    (h : targets.foldlM (decideTarget resolver vehicle campaign) verdict = .ok final)
    (hfinal : final.overallResult = true) :
    verdict.overallResult = true ∧ ∀ target ∈ targets, Passes vehicle campaign target ∨
      ∃ reason, checkTarget resolver vehicle campaign target = .ok (.skipped reason) := by
  induction targets generalizing verdict with
  | nil =>
      obtain rfl := Except.ok.inj h
      exact ⟨hfinal, List.forall_mem_nil _⟩
  | cons target targets ih =>
      rw [List.foldlM_cons] at h
      obtain ⟨next, hstep, hrest⟩ := bind_eq_ok.mp h
      obtain ⟨hnext, htargets⟩ := ih hrest
      obtain ⟨outcome, hcheck, rfl⟩ := decideTarget_ok hstep
      cases outcome with
      | approved =>
          refine ⟨hnext, fun other hother ↦ ?_⟩
          rcases List.mem_cons.mp hother with rfl | hother
          · exact Or.inl ((checkTarget_approved_iff other).mp hcheck)
          · exact htargets other hother
      | skipped reason =>
          refine ⟨hnext, fun other hother ↦ ?_⟩
          rcases List.mem_cons.mp hother with rfl | hother
          · exact Or.inr ⟨reason, hcheck⟩
          · exact htargets other hother
      | rejected => cases hnext

/-- In a compatible campaign every target passes or is skipped. -/
theorem passes_or_skipped (h : validate resolver vehicle campaign = .ok (true, decided)) :
    ∀ target ∈ campaign.targets, Passes vehicle campaign target ∨
      ∃ reason, checkTarget resolver vehicle campaign target = .ok (.skipped reason) := by
  obtain ⟨final, hloop, hfinal⟩ := bind_eq_ok.mp h
  have hoverall : final.overallResult = true := (Prod.mk.inj (Except.ok.inj hfinal)).1
  exact (foldlM_decideTarget_overall hloop hoverall).2

end CompatibilityValidator

/-! ## The plan of a run -/

section Plan

variable {float : List Char → Json} {fromisoformat : String → Except PyError DateTime}
  {env : Surroundings} {transport : String} {data : Json} {P : World → Prop} {g : Passage}
  {plan : DynamicUpdatePlan} {n : String}

theorem mem_selectedUpdateNames {vehicle : Vehicle} {campaign : Campaign}
    {eligible : List EligibleUpdate}
    (h : Tcu.plan env.resolver vehicle campaign eligible = .ok plan) :
    n ∈ selectedUpdateNames plan ↔ n ∈ plan.updateOrder := by
  rw [selectedUpdateNames, List.mem_map]
  constructor
  · rintro ⟨e, he, rfl⟩
    exact (of_decide_eq_true (List.mem_filter.mp he).2).2
  · intro hn
    have hentry := (Dict.get?_eq_some_iff _ _ _).mp ((mem_updateOrder_iff h n).mp hn)
    exact ⟨_, List.mem_filter.mpr ⟨hentry, decide_eq_true ⟨rfl, hn⟩⟩, rfl⟩

namespace Passage.Checked

theorem initiallyEligible (h : g.Checked float fromisoformat env transport data P)
    (hn : n ∈ g.plan.updateOrder) : InitiallyEligible g.decided g.planEligible n :=
  ((isGreatest_updateOrder h.planned).1 n hn).1

theorem stripped (h : g.Checked float fromisoformat env transport data P)
    (hnamed : g.vehicle.Named) (hn : n ∈ g.plan.updateOrder) :
    String.ofList (strip n.toList) = n ∧ n ≠ "" := by
  obtain ⟨planned, files, -, heligible⟩ := h.planEligible
  obtain ⟨ecu, hecu, rfl, -⟩ := (FirmwareCompatibilityValidator.mem_eligibleNames_iff heligible n).mp
    (h.initiallyEligible hn).2
  exact ⟨hnamed.stripped ecu hecu, hnamed.nonempty ecu hecu⟩

/-- The second check has found exactly the ECUs of the order. -/
theorem mem_eligibleNames (h : g.Checked float fromisoformat env transport data P)
    (hnamed : g.vehicle.Named) : n ∈ eligibleNames g.eligible ↔ n ∈ g.plan.updateOrder := by
  have hselected : FirmwareCompatibilityValidator.selectedTargets (selectedUpdateNames g.plan) =
      selectedUpdateNames g.plan :=
    FirmwareCompatibilityValidator.selectedTargets_eq fun m hm ↦
      h.stripped hnamed ((mem_selectedUpdateNames h.planned).mp hm)
  have hsub : eligibleNames g.eligible ⊆ selectedUpdateNames g.plan := by
    intro m hm
    obtain ⟨ecu, -, rfl, hadmitted, -⟩ :=
      (FirmwareCompatibilityValidator.mem_eligibleNames_iff h.eligible m).mp hm
    have hallowed := (of_decide_eq_true hadmitted).1
    rw [hselected] at hallowed
    exact hallowed.resolve_left h.names
  have hnodup := FirmwareCompatibilityValidator.nodup_eligibleNames hnamed h.eligible
  have hlength : (selectedUpdateNames g.plan).length ≤ (eligibleNames g.eligible).length := by
    rw [eligibleNames, List.length_map, h.complete]
  rw [← mem_selectedUpdateNames h.planned]
  exact ((List.subperm_of_subset hnodup hsub).perm_of_length_le hlength).mem_iff

theorem supplied (h : g.Checked float fromisoformat env transport data P)
    (hnamed : g.vehicle.Named) : (g.execution env).Supplied where
  eligible := fun _ hn ↦ (h.mem_eligibleNames hnamed).mpr hn
  dependencies := by
    intro m hm d hd
    have hdependencies : (g.execution env).dependencies m = g.plan.dependencies m :=
      @dependencies_planExecution env.resolver g.vehicle g.decided g.planEligible g.plan 0
        (fun _ _ ↦ .ok true) true h.planned m hm
    rw [hdependencies] at hd
    refine (((isGreatest_updateOrder h.planned).1 m hm).2 d hd).imp_right fun hsatisfied ↦ ?_
    obtain ⟨hdiscovered, hnot⟩ := discovered_of_satisfied h.planned hsatisfied
    refine List.mem_filter.mpr ⟨hdiscovered, decide_eq_true fun heligible ↦ hnot ?_⟩
    exact (h.initiallyEligible ((h.mem_eligibleNames hnamed).mp heligible)).2

end Passage.Checked

end Plan

/-! ## The exit code 0 -/

/-- What a run with the exit code 0 has done: it has flashed the planned ECUs in their order, and
a discovery behind that has found every target with its version that the campaign does not skip. -/
structure Success (float : List Char → Json) (fromisoformat : String → Except PyError DateTime)
    (env : Surroundings) (transport : String) (data : Json) (g : Passage) (found : Vehicle)
    (w : World) : Prop where
  fetched : ∃ url text, env.cloud.fetch url = .ok text ∧ readJson float text = .ok data
  campaign : (CampaignManager.loadCampaign data).map
    (fun campaign ↦ { campaign with transport }) = .ok g.campaign
  checked : g.Checked float fromisoformat env transport data fun _ ↦ True
  planned : g.plan.updateOrder ≠ []
  results : resultsOf w.log = g.plan.updateOrder.map fun n ↦ (n, Status.flashed)
  discovered : found ∈ env.polls ++ [env.lastPoll]
  running : ∀ target ∈ g.campaign.targets, Runs found target ∨ ∃ reason,
    CompatibilityValidator.checkTarget env.resolver g.vehicle g.campaign.toCampaign target =
      .ok (.skipped reason)
  -- a campaign whose targets are all skipped restricts nothing
  flashed : ∀ n ∈ g.plan.updateOrder,
    (∃ target ∈ g.campaign.targets, target.ecuName = n ∧ Runs found target) ∨
      ∀ target ∈ g.campaign.targets,
        ¬ CompatibilityValidator.Passes g.vehicle g.campaign.toCampaign target
  summary : env.summaryEnabled = true → ∃ summary, w.summary = some summary ∧
    summary.status = "COMPLETED" ∧ summary.reason = "FLASHING COMPLETE" ∧
    summary.perEcuResults = resultsOf w.log

section Run

variable {float : List Char → Json} {fromisoformat : String → Except PyError DateTime}
  {env : Surroundings} {transport : String} {data : Json} {P : World → Prop} {g : Passage}

theorem campaignResult_flashed {names : List String} (h : names ≠ []) :
    campaignResult (names.map fun n ↦ (n, Status.flashed)) = "FLASHING COMPLETE" := by
  rw [campaignResult_without_failures]
  · obtain ⟨n, names, rfl⟩ := List.exists_cons_of_ne_nil h
    simp
  · simp
  · simp

/-- The targets that pass are those that the validation looks for. -/
theorem Passage.Checked.runs (h : g.Checked float fromisoformat env transport data P)
    {stores : PostInstallValidator.Stores} (hvalidates : Validates env g.decided stores true) :
    ∃ found ∈ env.polls ++ [env.lastPoll], ∀ target ∈ g.campaign.targets,
      CompatibilityValidator.Passes g.vehicle g.campaign.toCampaign target → Runs found target := by
  obtain ⟨⟨approved, skipped, hdecided⟩, happroved, -⟩ :=
    CompatibilityValidator.validate_ok h.compatible
  have htargets : g.decided.targets = g.campaign.targets := by rw [hdecided]
  have hvalid := (CampaignValidator.validate_eq_true_iff _).mp h.valid
  obtain ⟨answer, hanswer, htrue⟩ := hvalidates
  have hsome : answer = some true := by
    cases answer with
    | none => cases htrue
    | some updated => rw [show updated = true from htrue.symm]
  rw [hsome] at hanswer
  obtain ⟨found, hfound, hruns⟩ := PostInstallValidator.runs_of_validate
    (htargets ▸ hvalid.ecuNames) hanswer
  refine ⟨found, by simpa using hfound, fun target htarget hpasses ↦ ?_⟩
  apply hruns target (htargets ▸ htarget)
  have hname := (happroved target.ecuName).mpr ⟨target, htarget, rfl, hpasses⟩
  rw [PostInstallValidator.validationTargetNames, if_pos (List.ne_nil_of_mem hname)]
  exact List.mem_dedup.mpr hname

theorem Passage.Checked.flashed_target (h : g.Checked float fromisoformat env transport data P)
    (hnamed : g.vehicle.Named) {n : String} (hn : n ∈ g.plan.updateOrder) :
    (∃ target ∈ g.campaign.targets, target.ecuName = n ∧
        CompatibilityValidator.Passes g.vehicle g.campaign.toCampaign target) ∨
      ∀ target ∈ g.campaign.targets,
        ¬ CompatibilityValidator.Passes g.vehicle g.campaign.toCampaign target :=
  ((eligible_iff h.compatible h.eligible).mp ((h.mem_eligibleNames hnamed).mpr hn)).2.symm

/-- A run that fails has the exit code 1. -/
theorem abort_code (summary : ExecutionSummary) (reason : String) :
    Call.Triple P (abort float env summary reason) (fun code _ ↦ code = 1) fun _ _ ↦ True := by
  have hany : Bystander fun _ ↦ True := ⟨fun _ _ ↦ id, fun _ _ ↦ id, fun _ _ ↦ id, fun _ _ ↦ id⟩
  have hfinalize : ∀ summary : ExecutionSummary, summary.status = "FAILED" →
      Call.Triple (fun _ ↦ True) (finalize env summary) (fun code _ ↦ code = 1) fun _ _ ↦ True := by
    intro summary hstatus
    apply triple_finalize
    · intro w _
      rw [hstatus]
      rfl
    · exact fun _ _ _ _ ↦ trivial
  exact ((markCurrentJob_keeps hany _ _).bind fun _ ↦ hfinalize _ rfl).strengthen
    fun _ _ ↦ trivial

theorem finalize_summary {log : List Event} {summary : ExecutionSummary} {Q : World → Prop}
    (h : ∀ w, w.log = log → (env.summaryEnabled = true → w.summary = some summary) → Q w) :
    Call.Triple (fun w ↦ w.log = log) (finalize env summary) (fun _ ↦ Q) fun _ _ ↦ True := by
  apply triple_finalize
  · intro w hlog
    split
    · exact h _ hlog fun _ ↦ rfl
    · rename_i hdisabled
      exact h _ hlog fun henabled ↦ absurd henabled hdisabled
  · exact fun _ _ _ _ ↦ trivial

theorem installUpdates_success (h : g.Checked float fromisoformat env transport data P)
    (hnamed : g.vehicle.Named) (summary : ExecutionSummary)
    (hfetched : ∃ url text, env.cloud.fetch url = .ok text ∧ readJson float text = .ok data)
    (hcampaign : (CampaignManager.loadCampaign data).map
      (fun campaign ↦ { campaign with transport }) = .ok g.campaign) :
    Call.Triple Silent (installUpdates float env summary g.decided (g.execution env))
      (fun code w ↦ code = 0 → ∃ found, Success float fromisoformat env transport data g found w)
      fun _ _ ↦ True := by
  have habort : ∀ {P : World → Prop} {summary reason}, Call.Triple P
      (abort float env summary reason)
      (fun code w ↦ code = 0 → ∃ found, Success float fromisoformat env transport data g found w)
      fun _ _ ↦ True := fun {P summary reason} ↦
    (abort_code summary reason).weaken fun code w hcode hzero ↦ by rw [hcode] at hzero; cases hzero
  have hplanned : g.plan.updateOrder ≠ [] := by
    intro hnil
    apply h.names
    rw [List.eq_nil_iff_forall_not_mem]
    intro n hn
    rw [mem_selectedUpdateNames h.planned, hnil] at hn
    cases hn
  refine Call.Triple.modify_bind
    (show Call.Triple (fun w ↦ w.log = (g.execution env).execute.1) _ _ _ from ?_) ?_
  · refine Call.Triple.ofExcept_bind (fun success hsuccess ↦ ?_) fun _ _ _ _ ↦ trivial
    refine triple_gate habort fun htrue ↦ ?_
    subst htrue
    have hresults := Execution.results_of_success (h.supplied hnamed) hsuccess
    refine Call.Triple.fact_bind (φ := fun updated ↦ ∃ stores, Validates env g.decided stores updated)
      (Q := fun _ w ↦ w.log = (g.execution env).execute.1)
      (triple_validateInstallation (fun w updated _ hw hvalidates ↦ ⟨⟨_, hvalidates⟩, hw⟩)
        fun _ _ _ _ ↦ trivial) fun updated hvalidates ↦ ?_
    refine triple_gate habort fun htrue ↦ ?_
    subst htrue
    obtain ⟨stores, hvalidates⟩ := hvalidates
    obtain ⟨found, hfound, hruns⟩ := h.runs hvalidates
    refine Call.Triple.bind ((markCurrentJob_keeps (bystander_log _) _ _).conseq (fun _ hw ↦ hw)
      (fun _ _ hw ↦ hw) fun _ _ _ ↦ trivial) fun _ ↦ ?_
    refine (finalize_summary fun w hlog hsummary ↦ ?_).weaken fun _ w hsuccess _ ↦ ⟨found, hsuccess⟩
    exact {
      fetched := hfetched
      campaign := hcampaign
      checked := h.mono fun _ _ ↦ trivial
      planned := hplanned
      results := hlog ▸ hresults
      discovered := hfound
      running := fun target htarget ↦
        (CompatibilityValidator.passes_or_skipped h.compatible target htarget).imp_left
          (hruns target htarget)
      flashed := fun n hn ↦ (h.flashed_target hnamed hn).imp_left
        fun hex ↦ hex.imp fun target ht ↦ ⟨ht.1, ht.2.1, hruns target ht.1 ht.2.2⟩
      summary := by
        intro henabled
        refine ⟨_, hsummary henabled, rfl, ?_, by rw [hlog]⟩
        rw [hresults]
        exact campaignResult_flashed hplanned }
  · intro w hw
    rw [show w.log = [] from hw, List.nil_append]

end Run

end VehicleOta.Tcu
