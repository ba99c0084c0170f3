import VehicleOta.Tcu.SchedulerSpec

/-!
# The result of a campaign

`execute` returns a boolean that it computes from sets of names, and leaves a string in
`last_campaign_result` that it computes from the statuses.  The two agree except where some ECUs
are left out, others are not, and nothing fails: then it returns `True`, and the string is
`FAILED`.
-/

namespace VehicleOta.Tcu

/-- `_campaign_result`; the status `PASS` that it also looks for is never appended. -/
def campaignResult (results : List (String × Status)) : String :=
  if results.length = 0 then "NO APPLICABLE UPDATES"
  else if results.any fun r ↦ r.2 = .aborted then "ABORTED_BY_POLICY"
  else if results.all fun r ↦ r.2 = .skipped then "NO APPLICABLE UPDATES"
  else if results.all fun r ↦ r.2 = .flashed ∨ r.2 = .satisfied then "FLASHING COMPLETE"
  else if results.any (fun r ↦ r.2 = .failed) ∧
      results.any (fun r ↦ r.2 = .flashed ∨ r.2 = .skipped) then "PARTIAL_SUCCESS"
  else "FAILED"

/-- The results that go with the return value `False`. -/
def failureResults : List String := ["FAILED", "PARTIAL_SUCCESS", "ABORTED_BY_POLICY"]

/-- The results that go with the return value `True`. -/
def successResults : List String := ["FLASHING COMPLETE", "NO APPLICABLE UPDATES"]

section Statuses

variable {results : List (String × Status)}

theorem campaignResult_of_aborted {ecuName : String} (h : (ecuName, Status.aborted) ∈ results) :
    campaignResult results = "ABORTED_BY_POLICY" := by
  have hlength : results.length ≠ 0 := (List.length_pos_of_mem h).ne'
  have hany : (results.any fun r ↦ r.2 = .aborted) = true :=
    List.any_eq_true.mpr ⟨_, h, decide_eq_true rfl⟩
  rw [campaignResult, if_neg hlength, if_pos hany]

theorem campaignResult_of_failed (hnone : ∀ r ∈ results, r.2 ≠ Status.aborted) {ecuName : String}
    (h : (ecuName, Status.failed) ∈ results) : campaignResult results ∈ failureResults := by
  have hlength : results.length ≠ 0 := (List.length_pos_of_mem h).ne'
  have hany : (results.any fun r ↦ r.2 = .aborted) = false := by simpa using hnone
  have hskipped : (results.all fun r ↦ r.2 = .skipped) = false :=
    List.all_eq_false.mpr ⟨_, h, by simp⟩
  have hdone : (results.all fun r ↦ r.2 = .flashed ∨ r.2 = .satisfied) = false :=
    List.all_eq_false.mpr ⟨_, h, by simp⟩
  rw [campaignResult, if_neg hlength, hany, hskipped, hdone]
  simp only [Bool.false_eq_true, if_false]
  split
  · simp [failureResults]
  · simp [failureResults]

/-- Without failures, only a mixture of skipped and other ECUs counts as failed. -/
theorem campaignResult_without_failures (hnone : ∀ r ∈ results, r.2 ≠ Status.aborted)
    (hfailed : ∀ r ∈ results, r.2 ≠ Status.failed) :
    campaignResult results =
      if (∃ r ∈ results, r.2 = .skipped) ∧ ∃ r ∈ results, r.2 ≠ .skipped then "FAILED"
      else if ∃ r ∈ results, r.2 ≠ .skipped then "FLASHING COMPLETE"
      else "NO APPLICABLE UPDATES" := by
  have haborted : (results.any fun r ↦ r.2 = .aborted) = false := by simpa using hnone
  have hnofail : (results.any fun r ↦ r.2 = .failed) = false := by simpa using hfailed
  rw [campaignResult, haborted, hnofail]
  by_cases hother : ∃ r ∈ results, r.2 ≠ Status.skipped
  · obtain ⟨r, hr, hne⟩ := hother
    have hlength : results.length ≠ 0 := (List.length_pos_of_mem hr).ne'
    have hmixed : (results.all fun r ↦ r.2 = .skipped) = false :=
      List.all_eq_false.mpr ⟨r, hr, by simpa using hne⟩
    have hsome : ∃ r ∈ results, r.2 ≠ Status.skipped := ⟨r, hr, hne⟩
    rw [if_neg hlength, hmixed, if_pos hsome]
    by_cases hskipped : ∃ r ∈ results, r.2 = Status.skipped
    · obtain ⟨q, hq, heq⟩ := hskipped
      have hdone : (results.all fun r ↦ r.2 = .flashed ∨ r.2 = .satisfied) = false :=
        List.all_eq_false.mpr ⟨q, hq, by simp [heq]⟩
      rw [hdone, if_pos (show _ ∧ _ from ⟨⟨q, hq, heq⟩, hsome⟩)]
      simp
    · have hdone : (results.all fun r ↦ r.2 = .flashed ∨ r.2 = .satisfied) = true := by
        refine List.all_eq_true.mpr fun q hq ↦ decide_eq_true ?_
        cases hstatus : q.2 with
        | flashed => exact Or.inl rfl
        | satisfied => exact Or.inr rfl
        | skipped => exact absurd ⟨q, hq, hstatus⟩ hskipped
        | failed => exact absurd hstatus (hfailed q hq)
        | aborted => exact absurd hstatus (hnone q hq)
      have hnot : ¬ ((∃ r ∈ results, r.2 = Status.skipped) ∧ ∃ r ∈ results, r.2 ≠ Status.skipped) :=
        fun h ↦ hskipped h.1
      rw [hdone, if_neg hnot]
      rfl
  · have hall : (results.all fun r ↦ r.2 = .skipped) = true := by
      refine List.all_eq_true.mpr fun r hr ↦ decide_eq_true ?_
      by_contra hne
      exact hother ⟨r, hr, hne⟩
    have hnot : ¬ ((∃ r ∈ results, r.2 = Status.skipped) ∧ ∃ r ∈ results, r.2 ≠ Status.skipped) :=
      fun h ↦ hother h.2
    rw [hall, if_neg hnot, if_neg hother]
    simp only [Bool.false_eq_true, if_true, if_false, ite_self]

end Statuses

namespace Execution

variable (x : Execution)

/-! ## An execution with its calls -/

/-- The execution with the outcomes of `send_firmware` for one ECU. -/
def sending (outcome : ℕ → Except PyError Bool) : Execution :=
  { x with transport := fun _ ↦ outcome }

/-- The loop from a position on; `outcome` has its own attempts for every position. -/
def runCalls (outcome : ℕ → ℕ → Except PyError Bool) : ℕ → List String → RunState → Verdict
  | _, [], s => .proceed s
  | position, ecuName :: rest, s =>
      match (x.sending (outcome position)).processEcu s ecuName with
      | .proceed s => runCalls outcome (position + 1) rest s
      | .stop s returned => .stop s returned

/-- `execute` with a transport whose outcomes may change between two updates of one ECU. -/
def executeCalls (outcome : ℕ → ℕ → Except PyError Bool) : List Event × Except PyError Bool :=
  if ¬ x.repositoryComplete then
    ([], .error (.runtimeError "Firmware repository verification failed."))
  else
    match x.runCalls outcome 0 x.updateOrder x.initial with
    | .proceed s => (s.log, .ok (!s.fatalPolicyAbort && s.failedEcus.isEmpty))
    | .stop s returned => (s.log, returned)

theorem runCalls_eq_runLoop (outcome : ℕ → ℕ → Except PyError Bool) (rest : List String)
    (position : ℕ) (s : RunState)
    (h : ∀ k, ∀ n, rest[k]? = some n → outcome (position + k) = x.transport n) :
    x.runCalls outcome position rest s = x.runLoop rest s := by
  induction rest generalizing position s with
  | nil => rfl
  | cons n rest ih =>
      have hfirst : outcome position = x.transport n := h 0 n rfl
      have hstep : (x.sending (outcome position)).processEcu s n = x.processEcu s n := by
        rw [processEcu, processEcu, flashEcu, flashEcu, hfirst]
        rfl
      rw [runCalls, runLoop, hstep]
      cases x.processEcu s n with
      | stop t returned => rfl
      | proceed t =>
          refine ih (position + 1) t fun k m hm ↦ ?_
          rw [Nat.add_assoc, Nat.add_comm 1]
          exact h (k + 1) m hm

/-- A transport whose outcomes only depend on the ECU. -/
theorem execute_eq_executeCalls :
    x.execute = x.executeCalls fun position ↦ x.transport ((x.updateOrder[position]?).getD "") := by
  have hrun := x.runCalls_eq_runLoop
    (fun position ↦ x.transport ((x.updateOrder[position]?).getD "")) x.updateOrder 0
    x.initial fun k n hn ↦ by rw [Nat.zero_add, hn, Option.getD_some]
  rw [executeCalls, hrun]
  rfl

/-! ## ECUs that are left out -/

/-- A dependency outside the order that is not satisfied from the start. -/
def Missing (d : String) : Prop := d ∉ x.updateOrder ∧ d ∉ x.initial.completedOrSatisfied

/-- An ECU behind the part `done` of the order cannot be updated: a dependency is missing or left
out before it, or the ECU is neither eligible nor discovered. -/
inductive LeftOut (x : Execution) : (done : List String) → (ecuName : String) → Prop
  | missing {done : List String} {ecuName d : String} (hd : d ∈ x.dependencies ecuName)
      (hmissing : x.Missing d) : LeftOut x done ecuName
  | behind {before after : List String} {ecuName d : String} (hd : d ∈ x.dependencies ecuName)
      (hout : LeftOut x before d) : LeftOut x (before ++ d :: after) ecuName
  | unavailable {done : List String} {ecuName : String}
      (heligible : ecuName ∉ eligibleNames x.eligibleUpdates)
      (hdiscovered : ecuName ∉ x.discoveredNames) : LeftOut x done ecuName

/-- A property of an ECU of the list and what comes before it. -/
def Occurs (P : List String → String → Prop) (done : List String) : Prop :=
  ∃ before n after, done = before ++ n :: after ∧ P before n

theorem occurs_concat {P : List String → String → Prop} {done : List String} {n : String} :
    Occurs P (done ++ [n]) ↔ Occurs P done ∨ P done n := by
  constructor
  · rintro ⟨before, m, after, heq, hP⟩
    rcases List.eq_nil_or_concat after with rfl | ⟨front, last, rfl⟩
    · obtain ⟨rfl, hm⟩ := List.append_inj' heq rfl
      obtain rfl := List.singleton_inj.mp hm
      exact Or.inr hP
    · have heq' : done ++ [n] = (before ++ m :: front) ++ [last] := by simpa using heq
      exact Or.inl ⟨before, m, front, (List.append_inj' heq' rfl).1, hP⟩
  · rintro (⟨before, m, after, rfl, hP⟩ | hP)
    · exact ⟨before, m, after ++ [n], by simp, hP⟩
    · exact ⟨done, n, [], rfl, hP⟩

/-- The ECU has a dependency that is missing or left out before it. -/
def Blocked (done : List String) (ecuName : String) : Prop :=
  ∃ d ∈ x.dependencies ecuName,
    x.Missing d ∨ Occurs (fun before m ↦ m = d ∧ x.LeftOut before m) done

theorem leftOut_iff (done : List String) (n : String) : x.LeftOut done n ↔
    x.Blocked done n ∨ n ∉ eligibleNames x.eligibleUpdates ∧ n ∉ x.discoveredNames := by
  constructor
  · intro h
    cases h with
    | missing hd hmissing => exact Or.inl ⟨_, hd, Or.inl hmissing⟩
    | behind hd hout => exact Or.inl ⟨_, hd, Or.inr ⟨_, _, _, rfl, rfl, hout⟩⟩
    | unavailable heligible hdiscovered => exact Or.inr ⟨heligible, hdiscovered⟩
  · rintro (⟨d, hd, hmissing | ⟨before, m, after, rfl, rfl, hout⟩⟩ | ⟨heligible, hdiscovered⟩)
    · exact .missing hd hmissing
    · exact .behind hd hout
    · exact .unavailable heligible hdiscovered

/-- The policy that ends the campaign at an ECU that is left out. -/
def Aborts (done : List String) (ecuName : String) : Prop :=
  (x.Blocked done ecuName ∧ (x.resolver.forEcu ecuName).dependencyFailureAbortsCampaign = true) ∨
    ¬ x.Blocked done ecuName ∧ (x.resolver.forEcu ecuName).unavailableAbortsCampaign = true

/-- The attempts fail until one within the retry count succeeds. -/
def Delivers (outcome : ℕ → Except PyError Bool) : Prop :=
  ∃ k < x.flashRetryCount, (∀ j < k, outcome (1 + j) = .ok false) ∧ outcome (1 + k) = .ok true

/-- Neither policy nor transport stands in the way of an ECU. -/
def Fine (outcome : ℕ → ℕ → Except PyError Bool) (done : List String) (ecuName : String) : Prop :=
  (x.LeftOut done ecuName → ¬ x.Aborts done ecuName) ∧
    (¬ x.LeftOut done ecuName → ecuName ∈ eligibleNames x.eligibleUpdates →
      x.Delivers (outcome done.length))

/-! ## Single ECUs -/

variable {x} {s t : RunState} {n : String}

/-- The three branches of the loop. -/
theorem processEcu_cases (x : Execution) (s : RunState) (n : String) :
    (∃ aborts, x.processEcu s n = skipEcu aborts s n ∧
      (x.blockingDependencies s n ≠ [] ∧
          aborts = (x.resolver.forEcu n).dependencyFailureAbortsCampaign ∨
        x.blockingDependencies s n = [] ∧ n ∉ eligibleNames x.eligibleUpdates ∧
          n ∉ s.completedOrSatisfied ∧ aborts = (x.resolver.forEcu n).unavailableAbortsCampaign)) ∨
    (x.blockingDependencies s n = [] ∧ n ∉ eligibleNames x.eligibleUpdates ∧
      n ∈ s.completedOrSatisfied ∧
      x.processEcu s n = .proceed { s with log := s.log ++ [.result n .satisfied] }) ∨
    (x.blockingDependencies s n = [] ∧ n ∈ eligibleNames x.eligibleUpdates ∧
      x.processEcu s n = x.flashEcu s n) := by
  unfold processEcu
  by_cases hblocked : x.blockingDependencies s n = []
  · rw [if_neg (not_not.mpr (List.isEmpty_iff.mpr hblocked))]
    by_cases heligible : n ∈ eligibleNames x.eligibleUpdates
    · rw [if_neg (not_not.mpr heligible)]
      exact Or.inr (Or.inr ⟨hblocked, heligible, rfl⟩)
    · rw [if_pos heligible, withoutEntry]
      by_cases hcompleted : n ∈ s.completedOrSatisfied
      · rw [if_pos hcompleted]
        exact Or.inr (Or.inl ⟨hblocked, heligible, hcompleted, rfl⟩)
      · rw [if_neg hcompleted]
        exact Or.inl ⟨_, rfl, Or.inr ⟨hblocked, heligible, hcompleted, rfl⟩⟩
  · rw [if_pos fun h ↦ hblocked (List.isEmpty_iff.mp h)]
    exact Or.inl ⟨_, rfl, Or.inl ⟨hblocked, rfl⟩⟩

/-- What is sent, with the result of an ECU. -/
def sentLog (x : Execution) (s : RunState) (n : String) (status : Status) : List Event :=
  s.log ++ (sendAttempts (x.transport n) n 1 x.flashRetryCount).1 ++ [.result n status]

theorem resultsOf_sentLog (status : Status) :
    resultsOf (x.sentLog s n status) = resultsOf s.log ++ [(n, status)] := by
  rw [sentLog, resultsOf_append, resultsOf_append, resultsOf_sendAttempts, List.append_nil,
    resultsOf_singleton]

/-- The transport raises, delivers the firmware, or fails. -/
theorem flashEcu_cases (x : Execution) (s : RunState) (n : String) :
    (∃ e u, x.flashEcu s n = .stop u (.error e) ∧
      (sendAttempts (x.transport n) n 1 x.flashRetryCount).2 = .error e) ∨
    ((sendAttempts (x.transport n) n 1 x.flashRetryCount).2 = .ok true ∧
      x.flashEcu s n = .proceed { s with
        log := x.sentLog s n .flashed
        completedOrSatisfied := s.completedOrSatisfied ++ [n] }) ∨
    ((sendAttempts (x.transport n) n 1 x.flashRetryCount).2 = .ok false ∧
      x.flashEcu s n = .proceed { s with
        log := x.sentLog s n .failed
        failedEcus := s.failedEcus ++ [n]
        fatalPolicyAbort :=
          s.fatalPolicyAbort || (x.resolver.forEcu n).criticality = "critical" }) := by
  unfold flashEcu
  cases hsent : (sendAttempts (x.transport n) n 1 x.flashRetryCount).2 with
  | error e =>
      exact Or.inl ⟨e, { s with log := s.log ++ (sendAttempts (x.transport n) n 1 x.flashRetryCount).1 },
        by simp only [hsent], rfl⟩
  | ok success =>
      cases success with
      | true => exact Or.inr (Or.inl ⟨rfl, by simp only [hsent, sentLog]⟩)
      | false => exact Or.inr (Or.inr ⟨rfl, by simp only [hsent, sentLog]⟩)

/-- The sets and the results tell the same story. -/
structure Tally (s : RunState) : Prop where
  noAbort : ∀ r ∈ resultsOf s.log, r.2 ≠ Status.aborted
  failed : s.failedEcus = [] ↔ ∀ r ∈ resultsOf s.log, r.2 ≠ Status.failed
  fatal : s.failedEcus = [] → s.fatalPolicyAbort = false

/-- One more result that is neither a failure nor an abort. -/
theorem Tally.concat (h : Tally s) (status : Status) (haborted : status ≠ .aborted)
    (hfailed : status ≠ .failed) (hresults : resultsOf t.log = resultsOf s.log ++ [(n, status)])
    (hsame : t.failedEcus = s.failedEcus) (hfatal : t.fatalPolicyAbort = s.fatalPolicyAbort) :
    Tally t where
  noAbort r hr := by
    rw [hresults] at hr
    rcases List.mem_append.mp hr with hr | hr
    · exact h.noAbort r hr
    · rw [List.mem_singleton.mp hr]
      exact haborted
  failed := by
    rw [hsame, h.failed, hresults]
    constructor
    · intro hall r hr
      rcases List.mem_append.mp hr with hr | hr
      · exact hall r hr
      · rw [List.mem_singleton.mp hr]
        exact hfailed
    · exact fun hall r hr ↦ hall r (List.mem_append_left _ hr)
  fatal hnone := by
    rw [hfatal]
    exact h.fatal (hsame ▸ hnone)

theorem Tally.failure (h : Tally s) (hresults : resultsOf t.log = resultsOf s.log ++ [(n, .failed)])
    (hfailed : t.failedEcus = s.failedEcus ++ [n]) : Tally t where
  noAbort r hr := by
    rw [hresults] at hr
    rcases List.mem_append.mp hr with hr | hr
    · exact h.noAbort r hr
    · rw [List.mem_singleton.mp hr]
      exact Status.noConfusion
  failed := by
    have hne : t.failedEcus ≠ [] := by
      rw [hfailed]
      exact List.append_ne_nil_of_right_ne_nil _ (List.cons_ne_nil _ _)
    refine iff_of_false hne fun hall ↦ hall (n, .failed) ?_ rfl
    rw [hresults]
    exact List.mem_append_right _ (List.mem_singleton_self _)
  fatal hnone := by
    rw [hfailed] at hnone
    exact absurd hnone (List.append_ne_nil_of_right_ne_nil _ (List.cons_ne_nil _ _))

theorem resultsOf_concat (log : List Event) (n : String) (status : Status) :
    resultsOf (log ++ [.result n status]) = resultsOf log ++ [(n, status)] := by
  rw [resultsOf_append, resultsOf_singleton]

/-- One ECU keeps the tally, or ends the campaign with an abort. -/
theorem Tally.processEcu (h : Tally s) :
    (∀ t, x.processEcu s n = .proceed t → Tally t ∧ s.failedEcus <+: t.failedEcus) ∧
      ∀ t b, x.processEcu s n = .stop t (.ok b) →
        b = false ∧ (n, Status.aborted) ∈ resultsOf t.log := by
  rcases x.processEcu_cases s n with ⟨aborts, heq, -⟩ | ⟨-, -, -, heq⟩ | ⟨-, -, heq⟩
  · rw [heq]
    cases aborts with
    | true =>
        refine ⟨fun t ht ↦ Verdict.noConfusion ht, fun t b ht ↦ ?_⟩
        obtain ⟨rfl, hb⟩ := Verdict.stop.inj ht
        refine ⟨(Except.ok.inj hb).symm, ?_⟩
        exact mem_resultsOf.mpr (List.mem_append_right _ (List.mem_singleton_self _))
    | false =>
        refine ⟨fun t ht ↦ ?_, fun t b ht ↦ Verdict.noConfusion ht⟩
        obtain rfl := Verdict.proceed.inj ht
        exact ⟨h.concat .skipped Status.noConfusion Status.noConfusion
          (resultsOf_concat _ _ _) rfl rfl, List.prefix_rfl⟩
  · rw [heq]
    refine ⟨fun t ht ↦ ?_, fun t b ht ↦ Verdict.noConfusion ht⟩
    obtain rfl := Verdict.proceed.inj ht
    exact ⟨h.concat .satisfied Status.noConfusion Status.noConfusion
      (resultsOf_concat _ _ _) rfl rfl, List.prefix_rfl⟩
  · rw [heq]
    rcases x.flashEcu_cases s n with ⟨e, u, hflash, -⟩ | ⟨-, hflash⟩ | ⟨-, hflash⟩
    · rw [hflash]
      refine ⟨fun t ht ↦ Verdict.noConfusion ht, fun t b ht ↦ ?_⟩
      obtain ⟨-, hb⟩ := Verdict.stop.inj ht
      cases hb
    · rw [hflash]
      refine ⟨fun t ht ↦ ?_, fun t b ht ↦ Verdict.noConfusion ht⟩
      obtain rfl := Verdict.proceed.inj ht
      exact ⟨h.concat .flashed Status.noConfusion Status.noConfusion
        (resultsOf_sentLog _) rfl rfl, List.prefix_rfl⟩
    · rw [hflash]
      refine ⟨fun t ht ↦ ?_, fun t b ht ↦ Verdict.noConfusion ht⟩
      obtain rfl := Verdict.proceed.inj ht
      exact ⟨h.failure (resultsOf_sentLog _) rfl, List.prefix_append _ _⟩

/-! ## Runs without failures -/

theorem delivers_of_sendAttempts {outcome : ℕ → Except PyError Bool} {attempt remaining : ℕ}
    (h : (sendAttempts outcome n attempt remaining).2 = .ok true) :
    ∃ k < remaining, (∀ j < k, outcome (attempt + j) = .ok false) ∧
      outcome (attempt + k) = .ok true := by
  induction remaining generalizing attempt with
  | zero => cases h
  | succ remaining ih =>
      unfold sendAttempts at h
      split at h
      · rename_i hfirst
        obtain ⟨k, hk, hbefore, hok⟩ := ih h
        refine ⟨k + 1, Nat.succ_lt_succ hk, fun j hj ↦ ?_, ?_⟩
        · cases j with
          | zero => exact hfirst
          | succ j =>
              have hj' := hbefore j (Nat.lt_of_succ_lt_succ hj)
              rwa [Nat.add_assoc, Nat.add_comm 1] at hj'
        · rwa [Nat.add_assoc, Nat.add_comm 1] at hok
      · exact ⟨0, Nat.succ_pos _, fun j hj ↦ absurd hj (Nat.not_lt_zero j), h⟩

theorem delivers_iff {outcome : ℕ → Except PyError Bool} :
    x.Delivers outcome ↔ (sendAttempts outcome n 1 x.flashRetryCount).2 = .ok true := by
  constructor
  · rintro ⟨k, hk, hbefore, hok⟩
    exact sendAttempts_success hk hbefore hok
  · exact delivers_of_sendAttempts

/-- A run that has neither failed nor been ended: exactly the ECUs that are left out have been
skipped. -/
structure Clean (x : Execution) (done : List String) (s : RunState) : Prop where
  failed : s.failedEcus = []
  skipped : ∀ d, d ∈ s.skippedEcus ↔ Occurs (fun before m ↦ m = d ∧ x.LeftOut before m) done
  completed : ∀ d ∈ s.completedOrSatisfied, d ∈ x.initial.completedOrSatisfied ∨
    d ∈ done ∧ d ∈ eligibleNames x.eligibleUpdates
  satisfied : ∀ d ∈ x.initial.completedOrSatisfied, d ∈ s.completedOrSatisfied
  someSkipped : (∃ r ∈ resultsOf s.log, r.2 = Status.skipped) ↔ Occurs x.LeftOut done
  someDone : (∃ r ∈ resultsOf s.log, r.2 ≠ Status.skipped) ↔
    Occurs (fun before m ↦ ¬ x.LeftOut before m) done

theorem clean_initial (x : Execution) : x.Clean [] x.initial where
  failed := rfl
  skipped d := by
    refine iff_of_false List.not_mem_nil ?_
    rintro ⟨before, m, after, heq, -⟩
    simp at heq
  completed d hd := Or.inl hd
  satisfied d hd := hd
  someSkipped := by
    refine iff_of_false (by simp [initial, resultsOf]) ?_
    rintro ⟨before, m, after, heq, -⟩
    simp at heq
  someDone := by
    refine iff_of_false (by simp [initial, resultsOf]) ?_
    rintro ⟨before, m, after, heq, -⟩
    simp at heq

/-- The dependencies that block an ECU in the middle of such a run. -/
theorem Clean.blocked_iff {done rest : List String} (h : x.Clean done s)
    (horder : x.updateOrder = done ++ n :: rest) :
    x.blockingDependencies s n ≠ [] ↔ x.Blocked done n := by
  have hcompleted : ∀ d, d ∉ x.updateOrder →
      (d ∉ s.completedOrSatisfied ↔ d ∉ x.initial.completedOrSatisfied) := by
    intro d hd
    rw [not_iff_not]
    refine ⟨fun hmem ↦ (h.completed d hmem).resolve_right fun hdone ↦ hd ?_, h.satisfied d⟩
    rw [horder]
    exact List.mem_append_left _ hdone.1
  rw [blockingDependencies, Ne, List.filter_eq_nil_iff, not_forall]
  refine exists_congr fun d ↦ ?_
  rw [Classical.not_imp, decide_eq_true_eq, not_not, h.failed, h.skipped]
  refine and_congr_right fun _ ↦ ?_
  simp only [List.not_mem_nil, false_or, Missing]
  rw [or_comm]
  exact or_congr_left (and_congr_right fun hd ↦ hcompleted d hd)

theorem exists_mem_concat {P : Status → Prop} {results : List (String × Status)}
    {status : Status} : (∃ r ∈ results ++ [(n, status)], P r.2) ↔
      (∃ r ∈ results, P r.2) ∨ P status := by
  simp only [List.mem_append, List.mem_singleton, or_and_right, exists_or, exists_eq_left]

theorem Clean.leaveOut {done : List String} (h : x.Clean done s) (hout : x.LeftOut done n)
    (hresults : resultsOf t.log = resultsOf s.log ++ [(n, .skipped)])
    (hfailed : t.failedEcus = s.failedEcus) (hskipped : t.skippedEcus = s.skippedEcus ++ [n])
    (hcompleted : t.completedOrSatisfied = s.completedOrSatisfied) : x.Clean (done ++ [n]) t where
  failed := hfailed.trans h.failed
  skipped d := by
    rw [hskipped, List.mem_append, List.mem_singleton, h.skipped, occurs_concat]
    exact or_congr_right ⟨fun hd ↦ ⟨hd.symm, hout⟩, fun hd ↦ hd.1.symm⟩
  completed d hd := by
    rw [hcompleted] at hd
    exact (h.completed d hd).imp_right fun hd ↦ ⟨List.mem_append_left _ hd.1, hd.2⟩
  satisfied d hd := hcompleted ▸ h.satisfied d hd
  someSkipped := by
    rw [hresults, exists_mem_concat (P := fun status ↦ status = .skipped), h.someSkipped,
      occurs_concat]
    exact or_congr_right (iff_of_true rfl hout)
  someDone := by
    rw [hresults, exists_mem_concat (P := fun status ↦ status ≠ .skipped), h.someDone,
      occurs_concat]
    exact or_congr_right (iff_of_false (not_not.mpr rfl) (not_not.mpr hout))

theorem Clean.handle {done : List String} (h : x.Clean done s) (hnot : ¬ x.LeftOut done n)
    (status : Status) (hstatus : status ≠ .skipped)
    (hresults : resultsOf t.log = resultsOf s.log ++ [(n, status)])
    (hfailed : t.failedEcus = s.failedEcus) (hskipped : t.skippedEcus = s.skippedEcus)
    (hcompleted : ∀ d, d ∈ t.completedOrSatisfied ↔ d ∈ s.completedOrSatisfied ∨
      d = n ∧ n ∈ eligibleNames x.eligibleUpdates) : x.Clean (done ++ [n]) t where
  failed := hfailed.trans h.failed
  skipped d := by
    rw [hskipped, h.skipped, occurs_concat]
    refine (or_iff_left fun hd ↦ hnot ?_).symm
    exact hd.2
  completed d hd := by
    rcases (hcompleted d).mp hd with hd | ⟨rfl, heligible⟩
    · exact (h.completed d hd).imp_right fun hd ↦ ⟨List.mem_append_left _ hd.1, hd.2⟩
    · exact Or.inr ⟨List.mem_append_right _ (List.mem_singleton_self _), heligible⟩
  satisfied d hd := (hcompleted d).mpr (Or.inl (h.satisfied d hd))
  someSkipped := by
    rw [hresults, exists_mem_concat (P := fun status ↦ status = .skipped), h.someSkipped,
      occurs_concat]
    exact or_congr_right (iff_of_false hstatus hnot)
  someDone := by
    rw [hresults, exists_mem_concat (P := fun status ↦ status ≠ .skipped), h.someDone,
      occurs_concat]
    exact or_congr_right (iff_of_true hstatus hnot)

theorem mem_initial {d : String} : d ∈ x.initial.completedOrSatisfied ↔
    d ∈ x.discoveredNames ∧ d ∉ eligibleNames x.eligibleUpdates := by
  rw [initial, List.mem_filter, decide_eq_true_eq]

theorem not_leftOut_of_eligible {done : List String} (hblocked : ¬ x.Blocked done n)
    (heligible : n ∈ eligibleNames x.eligibleUpdates) : ¬ x.LeftOut done n := by
  rw [leftOut_iff]
  rintro (hout | ⟨hnot, -⟩)
  · exact hblocked hout
  · exact hnot heligible

theorem Clean.not_leftOut_of_completed {done : List String} (h : x.Clean done s)
    (hblocked : ¬ x.Blocked done n) (heligible : n ∉ eligibleNames x.eligibleUpdates)
    (hcompleted : n ∈ s.completedOrSatisfied) : ¬ x.LeftOut done n := by
  have hinitial := (h.completed n hcompleted).resolve_right fun hdone ↦ heligible hdone.2
  rw [leftOut_iff]
  rintro (hout | ⟨-, hnot⟩)
  · exact hblocked hout
  · exact hnot (mem_initial.mp hinitial).1

/-- An ECU that is skipped is left out, and the policy that applies decides. -/
theorem Clean.leftOut_of_skip {done : List String} {blocking : List String} (h : x.Clean done s)
    (hblocked : blocking ≠ [] ↔ x.Blocked done n) {aborts : Bool}
    (hwhy : blocking ≠ [] ∧ aborts = (x.resolver.forEcu n).dependencyFailureAbortsCampaign ∨
      blocking = [] ∧ n ∉ eligibleNames x.eligibleUpdates ∧ n ∉ s.completedOrSatisfied ∧
        aborts = (x.resolver.forEcu n).unavailableAbortsCampaign) :
    x.LeftOut done n ∧ (aborts = true ↔ x.Aborts done n) := by
  rcases hwhy with ⟨hne, rfl⟩ | ⟨hnil, heligible, hcompleted, rfl⟩
  · have hout := hblocked.mp hne
    refine ⟨(x.leftOut_iff done n).mpr (Or.inl hout), fun haborts ↦ Or.inl ⟨hout, haborts⟩, ?_⟩
    rintro (⟨-, haborts⟩ | ⟨hnot, -⟩)
    · exact haborts
    · exact absurd hout hnot
  · have hnot : ¬ x.Blocked done n := fun hout ↦ hblocked.mpr hout hnil
    have hdiscovered : n ∉ x.discoveredNames := fun hmem ↦
      hcompleted (h.satisfied n (mem_initial.mpr ⟨hmem, heligible⟩))
    refine ⟨.unavailable heligible hdiscovered, fun haborts ↦ Or.inr ⟨hnot, haborts⟩, ?_⟩
    rintro (⟨hout, -⟩ | ⟨-, haborts⟩)
    · exact absurd hout hnot
    · exact haborts

/-- One ECU: the run goes on without a failure if and only if nothing stands in the way. -/
theorem Clean.step {done rest : List String} (h : x.Clean done s)
    (horder : x.updateOrder = done ++ n :: rest) (outcome : ℕ → ℕ → Except PyError Bool) :
    (∀ t, (x.sending (outcome done.length)).processEcu s n = .proceed t → t.failedEcus = [] →
      x.Clean (done ++ [n]) t ∧ x.Fine outcome done n) ∧
    (x.Fine outcome done n → ∃ t,
      (x.sending (outcome done.length)).processEcu s n = .proceed t ∧ t.failedEcus = []) := by
  have hblocked : (x.sending (outcome done.length)).blockingDependencies s n ≠ [] ↔
      x.Blocked done n := h.blocked_iff horder
  rcases (x.sending (outcome done.length)).processEcu_cases s n with
    ⟨aborts, heq, hwhy⟩ | ⟨hfree, heligible, hcompleted, heq⟩ | ⟨hfree, heligible, heq⟩
  · -- the ECU is left out
    obtain ⟨hout, haborts⟩ := h.leftOut_of_skip hblocked hwhy
    rw [heq]
    cases aborts with
    | true =>
        refine ⟨fun t ht ↦ Verdict.noConfusion ht, fun hfine ↦ ?_⟩
        exact absurd (haborts.mp rfl) (hfine.1 hout)
    | false =>
        refine ⟨fun t ht hfailed ↦ ?_, fun _ ↦ ⟨_, rfl, h.failed⟩⟩
        obtain rfl := Verdict.proceed.inj ht
        refine ⟨h.leaveOut hout (resultsOf_concat _ _ _) rfl rfl rfl, fun _ hend ↦ ?_,
          fun hnot ↦ absurd hout hnot⟩
        exact Bool.noConfusion (haborts.mpr hend)
  · -- it is satisfied
    have hnot := h.not_leftOut_of_completed (fun hout ↦ hblocked.mpr hout hfree) heligible hcompleted
    rw [heq]
    refine ⟨fun t ht hfailed ↦ ?_, fun _ ↦ ⟨_, rfl, h.failed⟩⟩
    obtain rfl := Verdict.proceed.inj ht
    refine ⟨h.handle hnot .satisfied Status.noConfusion (resultsOf_concat _ _ _) rfl rfl
      fun d ↦ ?_, fun hout ↦ absurd hout hnot, fun _ hmem ↦ absurd hmem heligible⟩
    exact (or_iff_left fun hd ↦ heligible hd.2).symm
  · -- it is flashed
    have hnot := not_leftOut_of_eligible (fun hout ↦ hblocked.mpr hout hfree) heligible
    rw [heq]
    rcases (x.sending (outcome done.length)).flashEcu_cases s n with
      ⟨e, u, hflash, hsent⟩ | ⟨hsent, hflash⟩ | ⟨hsent, hflash⟩
    · rw [hflash]
      refine ⟨fun t ht ↦ Verdict.noConfusion ht, fun hfine ↦ ?_⟩
      have hdelivers := (delivers_iff (n := n)).mp (hfine.2 hnot heligible)
      cases hsent.symm.trans hdelivers
    · rw [hflash]
      refine ⟨fun t ht hfailed ↦ ?_, fun _ ↦ ⟨_, rfl, h.failed⟩⟩
      obtain rfl := Verdict.proceed.inj ht
      refine ⟨h.handle hnot .flashed Status.noConfusion (resultsOf_sentLog _) rfl rfl
        fun d ↦ ?_, fun hout ↦ absurd hout hnot, fun _ _ ↦ delivers_iff.mpr hsent⟩
      rw [List.mem_append, List.mem_singleton]
      exact or_congr_right (and_iff_left heligible).symm
    · rw [hflash]
      refine ⟨fun t ht hfailed ↦ ?_, fun hfine ↦ ?_⟩
      · obtain rfl := Verdict.proceed.inj ht
        exact absurd hfailed (List.append_ne_nil_of_right_ne_nil _ (List.cons_ne_nil _ _))
      · have hdelivers := (delivers_iff (n := n)).mp (hfine.2 hnot heligible)
        cases hsent.symm.trans hdelivers

/-! ## Whole runs -/

/-- What a run makes of the tally. -/
theorem Tally.runCalls (outcome : ℕ → ℕ → Except PyError Bool) (rest : List String) (position : ℕ)
    (h : Tally s) :
    (∀ t, x.runCalls outcome position rest s = .proceed t →
      Tally t ∧ s.failedEcus <+: t.failedEcus) ∧
    ∀ t b, x.runCalls outcome position rest s = .stop t (.ok b) →
      b = false ∧ ∃ n, (n, Status.aborted) ∈ resultsOf t.log := by
  induction rest generalizing position s with
  | nil =>
      refine ⟨fun t ht ↦ ?_, fun t b ht ↦ Verdict.noConfusion ht⟩
      obtain rfl := Verdict.proceed.inj ht
      exact ⟨h, List.prefix_rfl⟩
  | cons n rest ih =>
      obtain ⟨hproceed, hstop⟩ := h.processEcu (x := x.sending (outcome position)) (n := n)
      unfold Execution.runCalls
      cases hstep : (x.sending (outcome position)).processEcu s n with
      | stop u returned =>
          refine ⟨fun t ht ↦ Verdict.noConfusion ht, fun t b ht ↦ ?_⟩
          obtain ⟨rfl, rfl⟩ := Verdict.stop.inj ht
          obtain ⟨hb, hmem⟩ := hstop u b hstep
          exact ⟨hb, n, hmem⟩
      | proceed u =>
          obtain ⟨hu, hprefix⟩ := hproceed u hstep
          obtain ⟨hlater, hlaterStop⟩ := ih (position + 1) hu
          refine ⟨fun t ht ↦ ?_, hlaterStop⟩
          obtain ⟨ht', hprefix'⟩ := hlater t ht
          exact ⟨ht', hprefix.trans hprefix'⟩

/-- A run goes to its end without a failure if and only if nothing stands in the way of any ECU. -/
theorem Clean.runCalls {done rest : List String} (h : x.Clean done s) (htally : Tally s)
    (horder : x.updateOrder = done ++ rest) (outcome : ℕ → ℕ → Except PyError Bool) :
    (∀ t, x.runCalls outcome done.length rest s = .proceed t → t.failedEcus = [] →
      x.Clean x.updateOrder t ∧
        ∀ before n after, rest = before ++ n :: after → x.Fine outcome (done ++ before) n) ∧
    ((∀ before n after, rest = before ++ n :: after → x.Fine outcome (done ++ before) n) →
      ∃ t, x.runCalls outcome done.length rest s = .proceed t ∧ t.failedEcus = []) := by
  induction rest generalizing done s with
  | nil =>
      refine ⟨fun t ht _ ↦ ?_, fun _ ↦ ⟨s, rfl, h.failed⟩⟩
      obtain rfl := Verdict.proceed.inj ht
      rw [List.append_nil] at horder
      refine ⟨horder ▸ h, fun before n after heq ↦ absurd heq (by simp)⟩
  | cons n rest ih =>
      obtain ⟨hforward, hback⟩ := h.step horder outcome
      have hlength : done.length + 1 = (done ++ [n]).length := by simp
      unfold Execution.runCalls
      constructor
      · intro t ht hfailed
        cases hstep : (x.sending (outcome done.length)).processEcu s n with
        | stop u returned =>
            rw [hstep] at ht
            cases ht
        | proceed u =>
            rw [hstep] at ht
            dsimp only at ht
            have hu := (htally.processEcu.1 u hstep).1
            have hnone : u.failedEcus = [] := by
              have hprefix := ((hu.runCalls outcome rest _).1 t ht).2
              rwa [hfailed, List.prefix_nil] at hprefix
            obtain ⟨hclean, hfine⟩ := hforward u hstep hnone
            rw [hlength] at ht
            obtain ⟨hend, hlater⟩ := (ih hclean hu (by simpa using horder)).1 t ht hfailed
            refine ⟨hend, fun before m after heq ↦ ?_⟩
            cases before with
            | nil =>
                obtain ⟨rfl, -⟩ := List.cons.inj heq
                rwa [List.append_nil]
            | cons first before =>
                obtain ⟨rfl, hrest⟩ := List.cons.inj heq
                have hm := hlater before m after hrest
                rwa [List.append_assoc] at hm
      · intro hall
        have hfirst := hall [] n rest rfl
        rw [List.append_nil] at hfirst
        obtain ⟨u, hstep, hnone⟩ := hback hfirst
        obtain ⟨hclean, -⟩ := hforward u hstep hnone
        have hu := (htally.processEcu.1 u hstep).1
        rw [hstep]
        dsimp only
        rw [hlength]
        refine (ih hclean hu (by simpa using horder)).2 fun before m after heq ↦ ?_
        rw [List.append_assoc]
        exact hall (n :: before) m after (by rw [heq]; rfl)

/-- Some ECUs of the order are left out and some are not, no policy ends the campaign, and the
transport delivers to every eligible ECU that is not left out. -/
structure PartlyLeftOut (x : Execution) (outcome : ℕ → ℕ → Except PyError Bool) : Prop where
  complete : x.repositoryComplete = true
  fine : ∀ before n after, x.updateOrder = before ++ n :: after → x.Fine outcome before n
  someOut : Occurs x.LeftOut x.updateOrder
  someHandled : Occurs (fun before n ↦ ¬ x.LeftOut before n) x.updateOrder

/-- The string that goes with a return value. -/
def GoesWith (returned : Bool) (result : String) : Prop :=
  (returned = false ↔ result ∈ failureResults) ∧ (returned = true ↔ result ∈ successResults)

theorem goesWith_false {result : String} (h : result ∈ failureResults) : GoesWith false result := by
  have hnot : result ∉ successResults := by
    simp only [failureResults, List.mem_cons, List.not_mem_nil, or_false] at h
    rcases h with rfl | rfl | rfl <;> decide
  exact ⟨iff_of_true rfl h, iff_of_false Bool.noConfusion hnot⟩

theorem goesWith_true {result : String} (h : result ∈ successResults) : GoesWith true result := by
  have hnot : result ∉ failureResults := by
    simp only [successResults, List.mem_cons, List.not_mem_nil, or_false] at h
    rcases h with rfl | rfl <;> decide
  exact ⟨iff_of_false Bool.noConfusion hnot, iff_of_true rfl h⟩

theorem tally_initial (x : Execution) : Tally x.initial where
  noAbort _ hr := absurd hr List.not_mem_nil
  failed := iff_of_true rfl fun _ hr ↦ absurd hr List.not_mem_nil
  fatal _ := rfl

/-- The end of a run without failures. -/
theorem Clean.goesWith_iff (hclean : x.Clean x.updateOrder t) (htally : Tally t) :
    GoesWith true (campaignResult (resultsOf t.log)) ↔
      ¬ (Occurs x.LeftOut x.updateOrder ∧
        Occurs (fun before n ↦ ¬ x.LeftOut before n) x.updateOrder) := by
  rw [← hclean.someSkipped, ← hclean.someDone,
    campaignResult_without_failures htally.noAbort (htally.failed.mp hclean.failed)]
  split
  · rename_i hmixed
    refine iff_of_false (fun hgoes ↦ ?_) (not_not.mpr hmixed)
    exact absurd (hgoes.2.mp rfl) (by decide)
  · rename_i hnot
    refine iff_of_true (goesWith_true ?_) hnot
    split
    · exact List.mem_cons_self
    · exact List.mem_cons_of_mem _ List.mem_cons_self

end Execution

open Execution

/-- For every execution and all outcomes of the transport: whatever `execute` returns goes with
the string it leaves, if and only if the order is not partly left out in a run in which nothing
fails. -/
theorem return_value_agrees_iff (x : Execution) (outcome : ℕ → ℕ → Except PyError Bool) :
    (∀ returned, (x.executeCalls outcome).2 = .ok returned →
      (returned = false ↔ campaignResult (resultsOf (x.executeCalls outcome).1) ∈
        ["FAILED", "PARTIAL_SUCCESS", "ABORTED_BY_POLICY"]) ∧
      (returned = true ↔ campaignResult (resultsOf (x.executeCalls outcome).1) ∈
        ["FLASHING COMPLETE", "NO APPLICABLE UPDATES"])) ↔
    ¬ x.PartlyLeftOut outcome := by
  have htally := (tally_initial x).runCalls (x := x) outcome x.updateOrder 0
  have hclean := (clean_initial x).runCalls (tally_initial x) (List.nil_append _).symm outcome
  have hproceeds : x.PartlyLeftOut outcome →
      ∃ t, x.runCalls outcome 0 x.updateOrder x.initial = .proceed t ∧ t.failedEcus = [] :=
    fun h ↦ hclean.2 h.fine
  have hgoal : (∀ returned, (x.executeCalls outcome).2 = .ok returned →
      GoesWith returned (campaignResult (resultsOf (x.executeCalls outcome).1))) ↔
      ¬ x.PartlyLeftOut outcome := by
    by_cases hcomplete : x.repositoryComplete = true
    · rw [executeCalls, if_neg (not_not.mpr hcomplete)]
      cases hrun : x.runCalls outcome 0 x.updateOrder x.initial with
      | stop t returned =>
          refine iff_of_true (fun b hb ↦ ?_) fun h ↦ ?_
          · dsimp only at hb
            subst hb
            obtain ⟨rfl, n, hmem⟩ := htally.2 t b hrun
            dsimp only
            rw [campaignResult_of_aborted hmem]
            exact goesWith_false (by simp [failureResults])
          · obtain ⟨u, hu, -⟩ := hproceeds h
            cases hrun.symm.trans hu
      | proceed t =>
          have ht := (htally.1 t hrun).1
          by_cases hnone : t.failedEcus = []
          · obtain ⟨hend, hfine⟩ := hclean.1 t hrun hnone
            have hreturn : (!t.fatalPolicyAbort && t.failedEcus.isEmpty) = true := by
              rw [ht.fatal hnone, hnone]
              rfl
            dsimp only
            rw [hreturn]
            refine Iff.trans ?_ ((hend.goesWith_iff ht).trans (not_congr ?_))
            · refine ⟨fun hall ↦ hall true rfl, fun hgoes b hb ↦ ?_⟩
              rwa [← Except.ok.inj hb]
            · exact ⟨fun h ↦ ⟨hcomplete, hfine, h.1, h.2⟩, fun h ↦ ⟨h.someOut, h.someHandled⟩⟩
          · refine iff_of_true (fun b hb ↦ ?_) fun h ↦ ?_
            · have hreturn : (!t.fatalPolicyAbort && t.failedEcus.isEmpty) = false := by
                rw [List.isEmpty_eq_false_iff.mpr hnone, Bool.and_false]
              dsimp only at hb
              rw [hreturn] at hb
              obtain rfl := Except.ok.inj hb
              have hfailed := mt ht.failed.mpr hnone
              push Not at hfailed
              obtain ⟨⟨n, status⟩, hmem, hstatus⟩ := hfailed
              dsimp only at hstatus
              rw [hstatus] at hmem
              exact goesWith_false (campaignResult_of_failed ht.noAbort hmem)
            · obtain ⟨u, hu, hempty⟩ := hproceeds h
              obtain rfl := Verdict.proceed.inj (hrun.symm.trans hu)
              exact absurd hempty hnone
    · refine iff_of_true (fun b hb ↦ ?_) fun h ↦ hcomplete h.complete
      rw [executeCalls, if_pos hcomplete] at hb
      cases hb
  exact hgoal

/-- The gateway is flashed and the cluster ECU is skipped behind a BCM that is not there. -/
def partlySkipped : Execution where
  resolver := demoResolver
  flashRetryCount := 2
  transport := fun _ _ ↦ .ok true
  repositoryComplete := true
  eligibleUpdates :=
    [{ ecu := demoEcu 0x201 "Gateway ECU" "1.0.0", package := demoPackage "Gateway ECU" "gateway_v2.bin" },
     { ecu := demoEcu 0x203 "Cluster ECU" "1.0.0", package := demoPackage "Cluster ECU" "cluster_v2.bin" }]
  updateOrder := ["Gateway ECU", "Cluster ECU"]
  vehicle := none
  dependencyMap := none

theorem partly_skipped_returns_true :
    (partlySkipped.executeCalls fun _ _ ↦ .ok true).2 = .ok true ∧
      resultsOf (partlySkipped.executeCalls fun _ _ ↦ .ok true).1 =
        [("Gateway ECU", .flashed), ("Cluster ECU", .skipped)] ∧
      campaignResult (resultsOf (partlySkipped.executeCalls fun _ _ ↦ .ok true).1) = "FAILED" :=
  ⟨by rfl, by decide, by decide⟩

end VehicleOta.Tcu
