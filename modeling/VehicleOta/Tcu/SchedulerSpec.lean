import VehicleOta.Trace.Since
import VehicleOta.Tcu.PlanSpec
import VehicleOta.Tcu.UpdateScheduler

/-!
# The scheduler carries out the plan

The scheduler computes satisfied, failed and skipped ECUs from names.  On the order, the entries
and the dependency map of an executable plan its decisions agree with the classification of the
planner, whatever the transport attempts do.
-/

namespace VehicleOta.Tcu

open TraceLogic

/-! ## Logs -/

@[simp] theorem resultsOf_append (log more : List Event) :
    resultsOf (log ++ more) = resultsOf log ++ resultsOf more := List.filterMap_append

@[simp] theorem resultsOf_singleton (ecuName : String) (status : Status) :
    resultsOf [.result ecuName status] = [(ecuName, status)] := rfl

theorem mem_resultsOf {log : List Event} {ecuName : String} {status : Status} :
    (ecuName, status) ∈ resultsOf log ↔ .result ecuName status ∈ log := by
  rw [resultsOf, List.mem_filterMap]
  constructor
  · rintro ⟨e, he, heq⟩
    cases e with
    | send n k => exact absurd heq (by simp [Event.result?])
    | result n st =>
        obtain ⟨rfl, rfl⟩ : n = ecuName ∧ st = status := by simpa [Event.result?] using heq
        exact he
  · exact fun h ↦ ⟨_, h, rfl⟩

namespace Execution

variable {transport : ℕ → Except PyError Bool} {ecuName : String}

theorem sendAttempts_sends (attempt remaining : ℕ) :
    ∀ e ∈ (sendAttempts transport ecuName attempt remaining).1, ∃ k, e = .send ecuName k := by
  induction remaining generalizing attempt with
  | zero => intro e he; exact absurd he List.not_mem_nil
  | succ remaining ih =>
      intro e he
      unfold sendAttempts at he
      split at he
      · rcases List.mem_cons.mp he with rfl | he
        · exact ⟨attempt, rfl⟩
        · exact ih (attempt + 1) e he
      · exact ⟨attempt, List.mem_singleton.mp he⟩

theorem resultsOf_sendAttempts (attempt remaining : ℕ) :
    resultsOf (sendAttempts transport ecuName attempt remaining).1 = [] := by
  rw [resultsOf, List.filterMap_eq_nil_iff]
  intro e he
  obtain ⟨k, rfl⟩ := sendAttempts_sends attempt remaining e he
  rfl

/-- A success needs an attempt. -/
theorem exists_send_of_success {attempt remaining : ℕ}
    (h : (sendAttempts transport ecuName attempt remaining).2 = .ok true) :
    ∃ k, .send ecuName k ∈ (sendAttempts transport ecuName attempt remaining).1 := by
  cases remaining with
  | zero => exact absurd h (by simp [sendAttempts])
  | succ remaining =>
      refine ⟨attempt, ?_⟩
      unfold sendAttempts
      split <;> simp

/-- The first attempt that does not just fail decides. -/
theorem sendAttempts_success {attempt remaining k : ℕ} (hk : k < remaining)
    (hfail : ∀ j < k, transport (attempt + j) = .ok false)
    (hsuccess : transport (attempt + k) = .ok true) :
    (sendAttempts transport ecuName attempt remaining).2 = .ok true := by
  induction remaining generalizing attempt k with
  | zero => omega
  | succ remaining ih =>
      cases k with
      | zero =>
          rw [Nat.add_zero] at hsuccess
          simp [sendAttempts, hsuccess]
      | succ k =>
          have hfirst : transport attempt = .ok false := by simpa using hfail 0 (by omega)
          simp only [sendAttempts, hfirst]
          refine ih (k := k) (by omega) (fun j hj ↦ ?_) ?_
          · rw [Nat.add_assoc, Nat.add_comm 1]
            exact hfail (j + 1) (by omega)
          · rw [Nat.add_assoc, Nat.add_comm 1]
            exact hsuccess

end Execution

/-! ## A plan and its execution -/

/-- The entries of the eligible list that the plan updates. -/
def planEntries (p : DynamicUpdatePlan) (eligibleUpdates : List EligibleUpdate) :
    List EligibleUpdate :=
  eligibleUpdates.filter fun entry ↦ entry.ecu.ecuName ∈ p.updateOrder

/-- `execute` as it is called for a plan. -/
def planExecution (resolver : DependencyPolicyResolver) (vehicle : Vehicle)
    (eligibleUpdates : List EligibleUpdate) (p : DynamicUpdatePlan) (flashRetryCount : ℕ)
    (transport : String → ℕ → Except PyError Bool) (repositoryComplete : Bool) : Execution where
  resolver
  flashRetryCount
  transport
  repositoryComplete
  eligibleUpdates := planEntries p eligibleUpdates
  updateOrder := p.updateOrder
  vehicle := some vehicle
  dependencyMap := some p.dependencyMap

def DynamicUpdatePlan.Satisfied (p : DynamicUpdatePlan) (ecuName : String) : Prop :=
  p.classifications.get? ecuName = some .alreadySatisfied

/-- A transport attempt goes to an ECU with all dependencies flashed before or satisfied. -/
def Safe (p : DynamicUpdatePlan) (past : List Event) (e : Event) : Prop :=
  ∀ n k, e = .send n k → ∀ d ∈ p.dependencies n, .result d .flashed ∈ past ∨ p.Satisfied d

/-- Nothing is sent behind an abort. -/
def NotAfterAbort (past : List Event) (e : Event) : Prop :=
  ∀ n k, e = .send n k → ∀ m, .result m .aborted ∉ past

section Plan

variable {resolver : DependencyPolicyResolver} {vehicle : Vehicle} {campaign : Campaign}
  {eligibleUpdates : List EligibleUpdate} {p : DynamicUpdatePlan} {flashRetryCount : ℕ}
  {transport : String → ℕ → Except PyError Bool} {repositoryComplete : Bool}

/-- A satisfied target was discovered and is not eligible. -/
theorem discovered_of_satisfied (h : plan resolver vehicle campaign eligibleUpdates = .ok p)
    {d : String} (hd : p.Satisfied d) :
    d ∈ vehicle.getAllEcus.map ECU.ecuName ∧ d ∉ eligibleNames eligibleUpdates := by
  obtain ⟨hclass, -⟩ := plan_eq_ok h
  have hinitial : d ∈ satisfiedNames resolver vehicle campaign eligibleUpdates := by
    rw [← (loopInvariant_finalBlocking resolver vehicle campaign eligibleUpdates).satisfied,
      ← hclass]
    exact hd
  obtain ⟨target, -, hclassify⟩ : ∃ target, (targetByName campaign).get? d = some target ∧
      (classify resolver vehicle campaign eligibleUpdates d target).1 = .alreadySatisfied := by
    rw [satisfiedNames, mem_namesWith, initialClassifications, Dict.get?_mapValues,
      Option.map_eq_some_iff] at hinitial
    exact hinitial
  unfold classify at hclassify
  split at hclassify
  · simp at hclassify
  · rename_i hnot
    refine ⟨?_, hnot⟩
    split at hclassify
    · simp at hclassify
    · unfold classifyRemaining at hclassify
      dsimp only at hclassify
      split at hclassify
      · split_ifs at hclassify
      · rename_i ecu hecu
        have hkey : d ∈ (discoveredByName vehicle).keys := by
          rw [← Dict.isSome_get?, hecu]
          rfl
        rw [discoveredByName, Dict.mem_keys_ofPairs, List.map_map] at hkey
        exact hkey

theorem eligible_of_mem_updateOrder (h : plan resolver vehicle campaign eligibleUpdates = .ok p)
    {n : String} (hn : n ∈ p.updateOrder) : n ∈ eligibleNames (planEntries p eligibleUpdates) := by
  have hinitial := ((isGreatest_updateOrder h).1 n hn).1
  obtain ⟨entry, hentry, rfl⟩ := List.mem_map.mp hinitial.2
  exact List.mem_map_of_mem (f := fun entry : EligibleUpdate ↦ entry.ecu.ecuName)
    (List.mem_filter.mpr ⟨hentry, by simpa using hn⟩)

/-- The scheduler works with the dependencies of the plan. -/
theorem dependencies_planExecution (h : plan resolver vehicle campaign eligibleUpdates = .ok p)
    {n : String} (hn : n ∈ p.updateOrder) :
    (planExecution resolver vehicle eligibleUpdates p flashRetryCount transport
      repositoryComplete).dependencies n = p.dependencies n := by
  obtain ⟨-, hmap, -⟩ := plan_eq_ok h
  have hkey : n ∈ p.dependencyMap.keys := by
    rw [hmap, resolveDependencies, Dict.keys_mapValues, mem_keys_targetByName]
    exact ((isGreatest_updateOrder h).1 n hn).1.1
  have hne : p.dependencyMap.entries.isEmpty = false := by
    rw [List.isEmpty_eq_false_iff]
    intro hnil
    rw [Dict.keys, hnil] at hkey
    exact List.not_mem_nil hkey
  simp [Execution.dependencies, planExecution, hne, DynamicUpdatePlan.dependencies]

/-! ## The loop -/

/-- The state of the loop behind the ECUs `done`. -/
structure Progress (p : DynamicUpdatePlan) (done : List String) (s : RunState) : Prop where
  names : (resultsOf s.log).map Prod.fst = done
  failed : ∀ n, n ∈ s.failedEcus ↔ (n, Status.failed) ∈ resultsOf s.log
  skipped : ∀ n, n ∈ s.skippedEcus ↔ (n, Status.skipped) ∈ resultsOf s.log
  statuses : ∀ n status, (n, status) ∈ resultsOf s.log →
    status = .flashed ∨ status = .failed ∨ status = .skipped
  completed : ∀ n, p.Satisfied n → n ∈ s.completedOrSatisfied
  sent : ∀ n, (n, Status.flashed) ∈ resultsOf s.log → ∃ k, .send n k ∈ s.log
  safe : Throughout (Safe p) s.log

/-- What holds of the log however the loop ends. -/
structure Carried (p : DynamicUpdatePlan) (log : List Event) : Prop where
  safe : Throughout (Safe p) log
  afterAbort : Throughout NotAfterAbort log
  names : (resultsOf log).map Prod.fst <+: p.updateOrder
  sent : ∀ n, (n, Status.flashed) ∈ resultsOf log → ∃ k, .send n k ∈ log

theorem safe_mono (past more : List Event) (e : Event) (h : Safe p past e) :
    Safe p (past ++ more) e :=
  fun n k he d hd ↦ (h n k he d hd).imp_left (List.mem_append_left more)

theorem Progress.not_aborted {done : List String} {s : RunState} (h : Progress p done s)
    (n : String) : .result n .aborted ∉ s.log := fun hmem ↦ by
  rcases h.statuses n _ (mem_resultsOf.mpr hmem) with h | h | h <;> simp at h

theorem Progress.carried {done rest : List String} {s : RunState} (h : Progress p done s)
    (horder : p.updateOrder = done ++ rest) : Carried p s.log where
  safe := h.safe
  afterAbort past e after heq n k _ m hm := h.not_aborted m (by rw [heq]; simp [hm])
  names := by rw [h.names, horder]; exact List.prefix_append _ _
  sent := h.sent

/-- The first unprocessed ECU and its dependencies. -/
theorem Progress.dependency_done (hplan : plan resolver vehicle campaign eligibleUpdates = .ok p)
    {done rest : List String} {n : String} {s : RunState} (h : Progress p done s)
    (horder : p.updateOrder = done ++ n :: rest) {d : String} (hd : d ∈ p.dependencies n) :
    (∃ status, (d, status) ∈ resultsOf s.log ∧
      (status = .flashed ∨ status = .failed ∨ status = .skipped)) ∨ p.Satisfied d := by
  have hn : n ∈ p.updateOrder := by rw [horder]; simp
  rcases ((isGreatest_updateOrder hplan).1 n hn).2 d hd with hmem | hsatisfied
  · obtain ⟨-, -, -, -, hparents⟩ := plan_eq_ok hplan
    have hdone : d ∈ done := hparents done n rest horder d ⟨hd, hmem⟩
    rw [← h.names] at hdone
    obtain ⟨⟨m, status⟩, hr, rfl⟩ := List.mem_map.mp hdone
    exact Or.inl ⟨status, hr, h.statuses m status hr⟩
  · exact Or.inr hsatisfied

theorem Progress.skipEcu {done : List String} {s : RunState} (h : Progress p done s)
    (n : String) :
    Progress p (done ++ [n])
      { s with
        log := s.log ++ [.result n .skipped]
        skippedEcus := s.skippedEcus ++ [n] } where
  names := by simp [h.names]
  failed m := by simp [h.failed]
  skipped m := by simp [h.skipped]
  statuses m status hm := by
    rw [resultsOf_append, resultsOf_singleton, List.mem_append, List.mem_singleton,
      Prod.mk.injEq] at hm
    rcases hm with hm | ⟨-, rfl⟩
    · exact h.statuses m status hm
    · simp
  completed := h.completed
  sent m hm := by
    have hm : (m, Status.flashed) ∈ resultsOf s.log := by simpa using hm
    obtain ⟨k, hk⟩ := h.sent m hm
    exact ⟨k, List.mem_append_left _ hk⟩
  safe := h.safe.append_of_forall safe_mono fun e he ↦ by
    intro m k hsend
    simp [List.mem_singleton.mp he] at hsend

/-- An ECU that is skipped, or aborts the campaign. -/
theorem carried_skipEcu {done rest : List String} {n : String} {s : RunState}
    (h : Progress p done s) (horder : p.updateOrder = done ++ n :: rest) :
    Carried p (s.log ++ [.result n .aborted]) where
  safe := h.safe.append_of_forall safe_mono fun e he ↦ by
    intro m k hsend
    simp [List.mem_singleton.mp he] at hsend
  afterAbort := (h.carried horder).afterAbort.append fun past e after heq m k hsend ↦ by
    have he : e ∈ [Event.result n .aborted] := by rw [heq]; simp
    simp [List.mem_singleton.mp he] at hsend
  names := by
    simp only [resultsOf_append, resultsOf_singleton, List.map_append, h.names, List.map_cons,
      List.map_nil, horder]
    exact ⟨rest, by simp⟩
  sent m hm := by
    have hm : (m, Status.flashed) ∈ resultsOf s.log := by simpa using hm
    obtain ⟨k, hk⟩ := h.sent m hm
    exact ⟨k, List.mem_append_left _ hk⟩

/-- The attempts for an ECU whose dependencies are flashed or satisfied. -/
theorem Throughout.sendAttempts {log : List Event} {n : String}
    (h : Throughout (Safe p) log)
    (hsafe : ∀ d ∈ p.dependencies n, .result d .flashed ∈ log ∨ p.Satisfied d)
    (f : ℕ → Except PyError Bool) (retries : ℕ) :
    Throughout (Safe p) (log ++ (Execution.sendAttempts f n 1 retries).1) :=
  h.append_of_forall safe_mono fun e he m k hsend d hd ↦ by
    obtain ⟨j, rfl⟩ := Execution.sendAttempts_sends 1 retries e he
    obtain ⟨rfl, -⟩ : n = m ∧ j = k := by simpa using hsend
    exact hsafe d hd

theorem Progress.attempted {done : List String} {s : RunState} {n : String}
    (h : Progress p done s)
    (hsafe : ∀ d ∈ p.dependencies n, .result d .flashed ∈ s.log ∨ p.Satisfied d)
    (f : ℕ → Except PyError Bool) (retries : ℕ) {status : Status}
    (hstatus : status = .flashed ∧ (Execution.sendAttempts f n 1 retries).2 = .ok true ∨
      status = .failed) {t : RunState}
    (hlog : t.log = s.log ++ (Execution.sendAttempts f n 1 retries).1 ++ [.result n status])
    (hfailed : ∀ m, m ∈ t.failedEcus ↔ m ∈ s.failedEcus ∨ m = n ∧ status = .failed)
    (hskipped : t.skippedEcus = s.skippedEcus)
    (hcompleted : ∀ m ∈ s.completedOrSatisfied, m ∈ t.completedOrSatisfied) :
    Progress p (done ++ [n]) t := by
  have hresults : resultsOf t.log = resultsOf s.log ++ [(n, status)] := by
    rw [hlog, resultsOf_append, resultsOf_append, Execution.resultsOf_sendAttempts,
      List.append_nil, resultsOf_singleton]
  refine ⟨?_, fun m ↦ ?_, fun m ↦ ?_, fun m st hm ↦ ?_, fun m hm ↦ hcompleted m (h.completed m hm),
    fun m hm ↦ ?_, ?_⟩
  · simp [hresults, h.names]
  · rw [hfailed, h.failed, hresults, List.mem_append, List.mem_singleton, Prod.mk.injEq]
    exact or_congr_right ⟨fun ⟨h1, h2⟩ ↦ ⟨h1, h2.symm⟩, fun ⟨h1, h2⟩ ↦ ⟨h1, h2.symm⟩⟩
  · rw [hskipped, h.skipped, hresults, List.mem_append, List.mem_singleton, Prod.mk.injEq]
    refine ⟨Or.inl, fun hm ↦ hm.elim id fun ⟨_, hst⟩ ↦ ?_⟩
    rcases hstatus with ⟨rfl, -⟩ | rfl <;> simp at hst
  · rw [hresults, List.mem_append, List.mem_singleton, Prod.mk.injEq] at hm
    rcases hm with hm | ⟨-, rfl⟩
    · exact h.statuses m st hm
    · rcases hstatus with ⟨rfl, -⟩ | rfl <;> simp
  · rw [hresults, List.mem_append, List.mem_singleton, Prod.mk.injEq] at hm
    rw [hlog]
    rcases hm with hm | ⟨rfl, hst⟩
    · obtain ⟨k, hk⟩ := h.sent m hm
      exact ⟨k, by simp [hk]⟩
    · rcases hstatus with ⟨-, hok⟩ | rfl
      · obtain ⟨k, hk⟩ := Execution.exists_send_of_success hok
        exact ⟨k, by simp [hk]⟩
      · simp at hst
  · rw [hlog]
    refine (Throughout.sendAttempts h.safe hsafe f retries).append_of_forall safe_mono ?_
    intro e he m k hsend
    simp [List.mem_singleton.mp he] at hsend

/-- No blocking dependency: every dependency was flashed or is satisfied. -/
theorem Progress.safe_of_not_blocked
    (hplan : plan resolver vehicle campaign eligibleUpdates = .ok p)
    {done rest : List String} {n : String} {s : RunState} (h : Progress p done s)
    (horder : p.updateOrder = done ++ n :: rest)
    (hfree : ((planExecution resolver vehicle eligibleUpdates p flashRetryCount transport
      repositoryComplete).blockingDependencies s n).isEmpty) :
    ∀ d ∈ p.dependencies n, .result d .flashed ∈ s.log ∨ p.Satisfied d := by
  intro d hd
  have hn : n ∈ p.updateOrder := by rw [horder]; simp
  have hnot : d ∉ s.failedEcus ∧ d ∉ s.skippedEcus := by
    have hempty := List.isEmpty_iff.mp hfree
    rw [Execution.blockingDependencies, dependencies_planExecution hplan hn,
      List.filter_eq_nil_iff] at hempty
    have := hempty d hd
    simp only [decide_eq_true_eq, not_or] at this
    exact ⟨this.1, this.2.1⟩
  rcases h.dependency_done hplan horder hd with ⟨status, hr, rfl | rfl | rfl⟩ | hsatisfied
  · exact Or.inl (mem_resultsOf.mp hr)
  · exact absurd ((h.failed d).mpr hr) hnot.1
  · exact absurd ((h.skipped d).mpr hr) hnot.2
  · exact Or.inr hsatisfied

/-- Why the loop can end early. -/
def Interrupted (s : RunState) (returned : Except PyError Bool) : Prop :=
  (∃ e, returned = .error e) ∨ ∃ m, .result m .aborted ∈ s.log

variable (flashRetryCount transport repositoryComplete)

theorem processEcu_step (hplan : plan resolver vehicle campaign eligibleUpdates = .ok p)
    {done rest : List String} {n : String} {s : RunState} (h : Progress p done s)
    (horder : p.updateOrder = done ++ n :: rest) :
    let x := planExecution resolver vehicle eligibleUpdates p flashRetryCount transport
      repositoryComplete
    (∀ t, x.processEcu s n = .proceed t → Progress p (done ++ [n]) t) ∧
      ∀ t returned, x.processEcu s n = .stop t returned →
        Carried p t.log ∧ Interrupted t returned := by
  intro x
  have hn : n ∈ p.updateOrder := by rw [horder]; simp
  unfold Execution.processEcu
  split
  · unfold Execution.blockEcu Execution.skipEcu
    cases (x.resolver.forEcu n).dependencyFailureAbortsCampaign with
    | true =>
        refine ⟨fun t ht ↦ by simp at ht, fun t returned ht ↦ ?_⟩
        obtain ⟨rfl, -⟩ := Verdict.stop.inj ht
        exact ⟨carried_skipEcu h horder, Or.inr ⟨n, by simp⟩⟩
    | false =>
        refine ⟨fun t ht ↦ ?_, fun t returned ht ↦ by simp at ht⟩
        obtain rfl := Verdict.proceed.inj ht
        exact h.skipEcu n
  · rename_i hfree
    have hsafe := h.safe_of_not_blocked hplan horder (not_not.mp hfree)
    have hentry : n ∈ eligibleNames x.eligibleUpdates := eligible_of_mem_updateOrder hplan hn
    rw [if_neg (not_not.mpr hentry)]
    have hsent := Throughout.sendAttempts h.safe hsafe (x.transport n) x.flashRetryCount
    unfold Execution.flashEcu
    cases hresult : (Execution.sendAttempts (x.transport n) n 1 x.flashRetryCount).2 with
    | error e =>
        refine ⟨fun t ht ↦ by simp [hresult] at ht, fun t returned ht ↦ ?_⟩
        simp only [hresult] at ht
        obtain ⟨rfl, rfl⟩ := Verdict.stop.inj ht
        refine ⟨⟨hsent, ?_, ?_, fun m hm ↦ ?_⟩, Or.inl ⟨e, rfl⟩⟩
        · refine (h.carried horder).afterAbort.append fun past e after heq m k _ a ha ↦ ?_
          rcases List.mem_append.mp ha with ha | ha
          · exact h.not_aborted a ha
          · obtain ⟨j, hj⟩ := Execution.sendAttempts_sends 1 x.flashRetryCount _
              (by rw [heq]; exact List.mem_append_left _ ha)
            simp at hj
        · rw [resultsOf_append, Execution.resultsOf_sendAttempts, List.append_nil]
          exact (h.carried horder).names
        · rw [resultsOf_append, Execution.resultsOf_sendAttempts, List.append_nil] at hm
          obtain ⟨k, hk⟩ := h.sent m hm
          exact ⟨k, List.mem_append_left _ hk⟩
    | ok success =>
        refine ⟨fun t ht ↦ ?_, fun t returned ht ↦ by cases success <;> simp [hresult] at ht⟩
        cases success with
        | true =>
            simp only [hresult] at ht
            obtain rfl := Verdict.proceed.inj ht
            exact h.attempted hsafe (x.transport n) x.flashRetryCount (Or.inl ⟨rfl, hresult⟩) rfl
              (fun m ↦ by simp) rfl (fun m hm ↦ List.mem_append_left _ hm)
        | false =>
            simp only [hresult] at ht
            obtain rfl := Verdict.proceed.inj ht
            exact h.attempted hsafe (x.transport n) x.flashRetryCount (Or.inr rfl) rfl
              (fun m ↦ by simp) rfl (fun m hm ↦ hm)

theorem runLoop_spec (hplan : plan resolver vehicle campaign eligibleUpdates = .ok p)
    {done rest : List String} {s : RunState} (h : Progress p done s)
    (horder : p.updateOrder = done ++ rest) :
    let x := planExecution resolver vehicle eligibleUpdates p flashRetryCount transport
      repositoryComplete
    (∀ t, x.runLoop rest s = .proceed t → Progress p p.updateOrder t) ∧
      ∀ t returned, x.runLoop rest s = .stop t returned →
        Carried p t.log ∧ Interrupted t returned := by
  intro x
  induction rest generalizing done s with
  | nil =>
      refine ⟨fun t ht ↦ ?_, fun t returned ht ↦ by simp [Execution.runLoop] at ht⟩
      obtain rfl := Verdict.proceed.inj ht
      rw [horder, List.append_nil]
      exact h
  | cons n rest ih =>
      obtain ⟨hproceed, hstop⟩ := processEcu_step flashRetryCount transport repositoryComplete
        hplan h horder
      rw [Execution.runLoop]
      cases hstep : x.processEcu s n with
      | proceed t => exact ih (hproceed t hstep) (by simp [horder])
      | stop t returned =>
          refine ⟨fun u hu ↦ by simp at hu, fun u r hu ↦ ?_⟩
          obtain ⟨rfl, rfl⟩ := Verdict.stop.inj hu
          exact hstop t returned hstep

theorem progress_initial (hplan : plan resolver vehicle campaign eligibleUpdates = .ok p) :
    Progress p [] (planExecution resolver vehicle eligibleUpdates p flashRetryCount transport
      repositoryComplete).initial where
  names := rfl
  failed n := by simp [Execution.initial, resultsOf]
  skipped n := by simp [Execution.initial, resultsOf]
  statuses n status h := by simp [Execution.initial, resultsOf] at h
  completed n hn := by
    obtain ⟨hdiscovered, hnot⟩ := discovered_of_satisfied hplan hn
    refine List.mem_filter.mpr ⟨hdiscovered, decide_eq_true ?_⟩
    intro hmem
    obtain ⟨entry, hentry, rfl⟩ := List.mem_map.mp hmem
    exact hnot (List.mem_map_of_mem (f := fun entry : EligibleUpdate ↦ entry.ecu.ecuName)
      (List.mem_filter.mp hentry).1)
  sent n h := by simp [Execution.initial, resultsOf] at h
  safe := throughout_nil

/-! ## Every execution -/

/-- However the execution ends, its log is sound; and it ends with a result for every ECU of
the plan unless it raised or aborted. -/
theorem carried_execute (hplan : plan resolver vehicle campaign eligibleUpdates = .ok p) :
    let x := planExecution resolver vehicle eligibleUpdates p flashRetryCount transport
      repositoryComplete
    Carried p x.execute.1 ∧
      ((∃ e, x.execute.2 = .error e) ∨ (∃ m, .result m .aborted ∈ x.execute.1) ∨
        (resultsOf x.execute.1).map Prod.fst = p.updateOrder) := by
  intro x
  obtain ⟨hproceed, hstop⟩ := runLoop_spec flashRetryCount transport repositoryComplete hplan
    (progress_initial flashRetryCount transport repositoryComplete hplan) (List.nil_append _).symm
  unfold Execution.execute
  split
  · exact ⟨⟨throughout_nil, throughout_nil, by simp [resultsOf], by simp [resultsOf]⟩,
      Or.inl ⟨_, rfl⟩⟩
  · cases hloop : x.runLoop x.updateOrder x.initial with
    | proceed t =>
        have hprogress := hproceed t hloop
        exact ⟨hprogress.carried (List.append_nil _).symm, Or.inr (Or.inr hprogress.names)⟩
    | stop t returned =>
        obtain ⟨hcarried, hinterrupted⟩ := hstop t returned hloop
        exact ⟨hcarried, hinterrupted.imp_right Or.inl⟩

/-- Dependencies through ECUs that are not satisfied already. -/
def DynamicUpdatePlan.DependsOn (p : DynamicUpdatePlan) : String → String → Prop :=
  Relation.TransGen fun n d ↦ d ∈ p.dependencies n ∧ ¬ p.Satisfied n

/-- A flashed ECU has no other result. -/
theorem Carried.unique {log : List Event} (h : Carried p log) (hnodup : p.updateOrder.Nodup)
    {n : String} {status other : Status} (hn : .result n status ∈ log)
    (hother : .result n other ∈ log) : status = other := by
  have hpair := List.inj_on_of_nodup_map (hnodup.sublist h.names.sublist)
    (mem_resultsOf.mpr hn) (mem_resultsOf.mpr hother) rfl
  exact (Prod.mk.inj hpair).2

/-- Behind a sent ECU stands a chain of flashed ones, down to the satisfied ones. -/
theorem Carried.dependsOn {log : List Event} (h : Carried p log) {n d : String} {k : ℕ}
    (hsend : .send n k ∈ log) (hd : p.DependsOn n d) :
    .result d .flashed ∈ log ∨ p.Satisfied d := by
  have hdirect : ∀ m j, .send m j ∈ log → ∀ c ∈ p.dependencies m,
      .result c .flashed ∈ log ∨ p.Satisfied c := by
    intro m j hm c hc
    obtain ⟨past, rest, heq⟩ := List.append_of_mem hm
    exact (h.safe past _ rest heq m j rfl c hc).imp_left fun hf ↦ by
      rw [heq]
      exact List.mem_append_left _ hf
  induction hd with
  | single hd => exact hdirect n k hsend _ hd.1
  | tail _ hd ih =>
      rcases ih with hflashed | hsatisfied
      · obtain ⟨j, hj⟩ := h.sent _ (mem_resultsOf.mpr hflashed)
        exact hdirect _ j hj _ hd.1
      · exact absurd hsatisfied hd.2

/-! ## When every ECU can be flashed -/

/-- The attempts of an ECU fail until one within the retry count succeeds. -/
def Succeeds (transport : String → ℕ → Except PyError Bool) (flashRetryCount : ℕ) (n : String) :
    Prop :=
  ∃ k < flashRetryCount, (∀ j < k, transport n (1 + j) = .ok false) ∧
    transport n (1 + k) = .ok true

/-- Nothing has gone wrong so far. -/
structure AllFlashed (done : List String) (s : RunState) : Prop where
  results : resultsOf s.log = done.map fun n ↦ (n, Status.flashed)
  failed : s.failedEcus = []
  skipped : s.skippedEcus = []
  fatal : s.fatalPolicyAbort = false

theorem AllFlashed.step (hplan : plan resolver vehicle campaign eligibleUpdates = .ok p)
    {done rest : List String} {n : String} {s : RunState} (h : AllFlashed done s)
    (hprogress : Progress p done s) (horder : p.updateOrder = done ++ n :: rest)
    (hsuccess : Succeeds transport flashRetryCount n) :
    ∃ t, (planExecution resolver vehicle eligibleUpdates p flashRetryCount transport
      repositoryComplete).processEcu s n = .proceed t ∧ AllFlashed (done ++ [n]) t := by
  set x := planExecution resolver vehicle eligibleUpdates p flashRetryCount transport
    repositoryComplete with hx
  have hn : n ∈ p.updateOrder := by rw [horder]; simp
  have hfree : x.blockingDependencies s n = [] := by
    rw [Execution.blockingDependencies, dependencies_planExecution hplan hn,
      List.filter_eq_nil_iff]
    intro d hd
    have hreach : d ∈ p.updateOrder ∨ d ∈ s.completedOrSatisfied :=
      (((isGreatest_updateOrder hplan).1 n hn).2 d hd).imp_right (hprogress.completed d)
    simp only [h.failed, h.skipped, List.not_mem_nil, false_or, decide_eq_true_eq, not_and,
      not_not]
    exact fun hnot ↦ hreach.resolve_left hnot
  obtain ⟨k, hk, hfail, hok⟩ := hsuccess
  have hsent := @Execution.sendAttempts_success (transport n) n _ _ _ hk hfail
    hok
  have hprocess : x.processEcu s n = .proceed { s with
      log := s.log ++ (Execution.sendAttempts (transport n) n 1 flashRetryCount).1 ++
        [.result n .flashed]
      completedOrSatisfied := s.completedOrSatisfied ++ [n] } := by
    have hentry : n ∈ eligibleNames x.eligibleUpdates := eligible_of_mem_updateOrder hplan hn
    rw [Execution.processEcu, hfree, if_neg (by simp), if_neg (not_not.mpr hentry),
      Execution.flashEcu]
    simp only [hx, planExecution, hsent]
  refine ⟨_, hprocess, ?_, h.failed, h.skipped, h.fatal⟩
  simp [Execution.resultsOf_sendAttempts, h.results]

theorem runLoop_allFlashed (hplan : plan resolver vehicle campaign eligibleUpdates = .ok p)
    {done rest : List String} {s : RunState} (h : AllFlashed done s)
    (hprogress : Progress p done s) (horder : p.updateOrder = done ++ rest)
    (hsuccess : ∀ n ∈ p.updateOrder, Succeeds transport flashRetryCount n) :
    ∃ t, (planExecution resolver vehicle eligibleUpdates p flashRetryCount transport
      repositoryComplete).runLoop rest s = .proceed t ∧ AllFlashed p.updateOrder t := by
  induction rest generalizing done s with
  | nil => exact ⟨s, rfl, by rwa [horder, List.append_nil]⟩
  | cons n rest ih =>
      obtain ⟨t, ht, hflashed⟩ := h.step flashRetryCount transport repositoryComplete hplan
        hprogress horder (hsuccess n (by rw [horder]; simp))
      have hnext := (processEcu_step flashRetryCount transport repositoryComplete hplan hprogress
        horder).1 t ht
      obtain ⟨u, hu, hall⟩ := ih hflashed hnext (by simp [horder])
      exact ⟨u, by rw [Execution.runLoop, ht]; exact hu, hall⟩

/-- Every execution of a returned plan.  An ECU is sent firmware only behind flashed or
satisfied dependencies, and none that it depends on through unsatisfied ECUs failed or was
skipped; nothing is sent behind an abort; no ECU has two results and each has one unless the
execution raises or aborts; and where every ECU can be flashed, all are, in order. -/
theorem execute_plan (resolver : DependencyPolicyResolver) (vehicle : Vehicle)
    (campaign : Campaign) (eligibleUpdates : List EligibleUpdate) (p : DynamicUpdatePlan)
    (flashRetryCount : ℕ) (transport : String → ℕ → Except PyError Bool)
    (repositoryComplete : Bool)
    (hplan : plan resolver vehicle campaign eligibleUpdates = .ok p) (x : Execution)
    (hx : x = planExecution resolver vehicle eligibleUpdates p flashRetryCount transport
      repositoryComplete) :
    Throughout (Safe p) x.execute.1 ∧
      (∀ n k d, .send n k ∈ x.execute.1 → p.DependsOn n d →
        ∀ status, .result d status ∈ x.execute.1 → status = .flashed) ∧
      Throughout NotAfterAbort x.execute.1 ∧
      ((resultsOf x.execute.1).map Prod.fst).Nodup ∧
      (∀ returned, x.execute.2 = .ok returned → (∀ m, .result m .aborted ∉ x.execute.1) →
        (resultsOf x.execute.1).map Prod.fst = p.updateOrder) ∧
      (repositoryComplete → (∀ n ∈ p.updateOrder, Succeeds transport flashRetryCount n) →
        resultsOf x.execute.1 = p.updateOrder.map (fun n ↦ (n, Status.flashed)) ∧
          x.execute.2 = .ok true) := by
  subst hx
  obtain ⟨hcarried, hend⟩ := carried_execute flashRetryCount transport repositoryComplete hplan
  obtain ⟨-, -, hnodup, -, -⟩ := plan_eq_ok hplan
  refine ⟨hcarried.safe, fun n k d hsend hd status hstatus ↦ ?_, hcarried.afterAbort,
    hnodup.sublist hcarried.names.sublist, fun returned hreturned hnone ↦ ?_,
    fun hcomplete hsuccess ↦ ?_⟩
  · rcases hcarried.dependsOn hsend hd with hflashed | hsatisfied
    · exact hcarried.unique hnodup hstatus hflashed
    · -- a satisfied ECU is not in the order and has no result
      have hmem : d ∈ p.updateOrder := by
        refine hcarried.names.subset ?_
        exact List.mem_map.mpr ⟨(d, status), mem_resultsOf.mpr hstatus, rfl⟩
      have heligible := (mem_updateOrder_iff hplan d).mp hmem
      exact absurd (hsatisfied.symm.trans heligible) (by simp)
  · rcases hend with ⟨e, he⟩ | ⟨m, hm⟩ | hall
    · exact absurd (he.symm.trans hreturned) (by simp)
    · exact absurd hm (hnone m)
    · exact hall
  · obtain ⟨t, ht, hall⟩ := runLoop_allFlashed flashRetryCount transport repositoryComplete hplan
      ⟨rfl, rfl, rfl, rfl⟩ (progress_initial flashRetryCount transport repositoryComplete hplan)
      (List.nil_append _).symm hsuccess
    have hexecute : (planExecution resolver vehicle eligibleUpdates p flashRetryCount transport
        repositoryComplete).execute = (t.log, .ok (!t.fatalPolicyAbort && t.failedEcus.isEmpty)) := by
      have hrun : (planExecution resolver vehicle eligibleUpdates p flashRetryCount transport
        repositoryComplete).repositoryComplete = true := hcomplete
      have horder : (planExecution resolver vehicle eligibleUpdates p flashRetryCount transport
        repositoryComplete).updateOrder = p.updateOrder := rfl
      simp only [Execution.execute, hrun, horder]
      rw [ht]
      rfl
    rw [hexecute]
    exact ⟨hall.results, by simp [hall.fatal, hall.failed]⟩

end Plan

/-- The demo plan, with a transport that succeeds at the second attempt. -/
theorem execute_plan_demo : ∃ p, plan demoResolver demoVehicle demoCampaign demoEligible = .ok p ∧
    resultsOf (planExecution demoResolver demoVehicle demoEligible p 3
      (fun _ attempt ↦ .ok (attempt == 2)) true).execute.1 =
        [("BCM ECU", .flashed), ("Cluster ECU", .flashed)] := by
  obtain ⟨p, hplan, horder, -⟩ := exists_demoPlan
  have hall := (execute_plan demoResolver demoVehicle demoCampaign demoEligible p 3
    (fun _ attempt ↦ .ok (attempt == 2)) true hplan _ rfl).2.2.2.2.2 rfl
    (fun n _ ↦ ⟨1, by decide, fun j hj ↦ by rw [Nat.lt_one_iff.mp hj]; rfl, rfl⟩)
  exact ⟨p, hplan, by rw [hall.1, horder]; rfl⟩

/-- The demo vehicle with an updated BCM. -/
def updatedBcmVehicle : Vehicle where
  ecus := Dict.ofPairs
    [(0x201, demoEcu 0x201 "Gateway ECU" "1.0.0"), (0x202, demoEcu 0x202 "BCM ECU" "2.0.0"),
     (0x203, demoEcu 0x203 "Cluster ECU" "1.0.0")]

def updatedBcmEligible : List EligibleUpdate :=
  [{ ecu := demoEcu 0x203 "Cluster ECU" "1.0.0", package := demoPackage "Cluster ECU" "cluster_v2.bin" },
   { ecu := demoEcu 0x201 "Gateway ECU" "1.0.0", package := demoPackage "Gateway ECU" "gateway_v2.bin" }]

/-- A satisfied dependency hides the failure behind it: the update of the gateway fails, and the
cluster, which depends on the updated BCM and through it on the gateway, is still sent. -/
theorem sent_behind_failed_transitive_dependency : ∃ p,
    plan demoResolver updatedBcmVehicle demoCampaign updatedBcmEligible = .ok p ∧ p.executable ∧
      "BCM ECU" ∈ p.dependencies "Cluster ECU" ∧ "Gateway ECU" ∈ p.dependencies "BCM ECU" ∧
      [.result "Gateway ECU" .failed, .send "Cluster ECU" 1] <:+:
        (planExecution demoResolver updatedBcmVehicle updatedBcmEligible p 1
          (fun n _ ↦ .ok (n == "Cluster ECU")) true).execute.1 := by
  have h : (plan demoResolver updatedBcmVehicle demoCampaign updatedBcmEligible).toOption.map
      (fun p ↦ (p.executable, p.dependencies "Cluster ECU", p.dependencies "BCM ECU",
        (planExecution demoResolver updatedBcmVehicle updatedBcmEligible p 1
          (fun n _ ↦ .ok (n == "Cluster ECU")) true).execute.1)) =
      some (true, ["BCM ECU"], ["Gateway ECU"],
        [.send "Gateway ECU" 1, .result "Gateway ECU" .failed, .send "Cluster ECU" 1,
          .result "Cluster ECU" .flashed]) := by
    decide +kernel
  cases hp : plan demoResolver updatedBcmVehicle demoCampaign updatedBcmEligible with
  | error e => simp [hp, Except.toOption] at h
  | ok p =>
      rw [hp, Except.toOption, Option.map_some, Option.some.injEq] at h
      simp only [Prod.mk.injEq] at h
      obtain ⟨hexecutable, hcluster, hbcm, hlog⟩ := h
      refine ⟨p, rfl, hexecutable, by simp [hcluster], by simp [hbcm], ?_⟩
      rw [hlog]
      exact ⟨[.send "Gateway ECU" 1], [.result "Cluster ECU" .flashed], rfl⟩

end VehicleOta.Tcu
