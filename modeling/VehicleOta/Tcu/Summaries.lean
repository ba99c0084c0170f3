import VehicleOta.Tcu.OtaStages

/-!
# The summary of a run

A run does the same whether or not its summary is written: the summary comes last, and all that it
adds is a file or an exception.
-/

namespace VehicleOta.Tcu

open CrashLogic TraceLogic

variable {float : List Char → Json} {fromisoformat : String → Except PyError DateTime}
  {env : Surroundings} {outcome silent : Except PyError ℕ × World}

/-- The surroundings without `OTA_EXECUTION_SUMMARY_PATH`. -/
def Surroundings.withoutSummary (env : Surroundings) : Surroundings :=
  { env with summaryEnabled := false }

/-- Every summary can be written. -/
def Surroundings.Writable (env : Surroundings) : Prop :=
  ∀ summary e, ¬ env.Unwritable summary e

theorem writable_withoutSummary : env.withoutSummary.Writable :=
  fun _ _ h ↦ Bool.false_ne_true h.1

/-- Everything but the summary and `current_job` is as it was.  The job file of the server, which an
auto-publishing run writes before it is notified, is no part of the world. -/
structure Untouched (w w' : World) : Prop where
  jobs : w'.jobs = w.jobs
  localCampaign : w'.localCampaign = w.localCampaign
  files : w'.files = w.files
  trust : w'.trust = w.trust
  stores : w'.stores = w.stores
  log : w'.log = w.log

theorem Untouched.refl (w : World) : Untouched w w := ⟨rfl, rfl, rfl, rfl, rfl, rfl⟩

theorem Untouched.trans {w w' w'' : World} (h : Untouched w w') (h' : Untouched w' w'') :
    Untouched w w'' where
  jobs := h'.jobs.trans h.jobs
  localCampaign := h'.localCampaign.trans h.localCampaign
  files := h'.files.trans h.files
  trust := h'.trust.trans h.trust
  stores := h'.stores.trans h.stores
  log := h'.log.trans h.log

theorem untouched_summary (summary : ExecutionSummary) (w : World) :
    Untouched w (if env.summaryEnabled then { w with summary := some summary } else w) := by
  split
  · exact ⟨rfl, rfl, rfl, rfl, rfl, rfl⟩
  · exact .refl w

/-- A run with a summary and the run without it. -/
structure Reports (env : Surroundings) (outcome silent : Except PyError ℕ × World) : Prop where
  untouched : Untouched silent.2 outcome.2
  result : outcome.1 = silent.1 ∨ ∃ summary e, env.Unwritable summary e ∧
    silent.1 = .ok (if summary.status = "COMPLETED" then 0 else 1) ∧ outcome.1 = .error e

theorem reports_refl (outcome : Except PyError ℕ × World) : Reports env outcome outcome :=
  ⟨.refl _, Or.inl rfl⟩

/-! ## The ends of a run -/

theorem finalize_withoutSummary (summary : ExecutionSummary) (w : World) :
    finalize env.withoutSummary summary w =
      (.ok (if summary.status = "COMPLETED" then 0 else 1), w) := rfl

theorem finalize_reports (summary : ExecutionSummary) :
    Call.Relates (Reports env) (finalize env summary) (finalize env.withoutSummary summary) := by
  intro w
  rw [finalize_withoutSummary]
  have hspec : Call.Triple (· = w) (finalize env summary)
      (fun code w' ↦ code = (if summary.status = "COMPLETED" then 0 else 1) ∧
        Untouched w w')
      fun e w' ↦ env.Unwritable summary e ∧ Untouched w w' := by
    apply triple_finalize
    · rintro w' rfl
      exact ⟨rfl, untouched_summary summary w'⟩
    · rintro e w' hwrite rfl
      exact ⟨hwrite, .refl _⟩
  rcases Call.settles_iff.mp (hspec w rfl) with ⟨code, hcode, rfl, hworld⟩ | ⟨e, he, hwrite, hworld⟩
  · exact ⟨hworld, Or.inl hcode⟩
  · exact ⟨hworld, Or.inr ⟨summary, e, hwrite, rfl, he⟩⟩

theorem conclude_reports (status : String) (summary : ExecutionSummary) :
    Call.Relates (Reports env)
      (do
        markCurrentJob float env.cloud status
        finalize env summary)
      (do
        markCurrentJob float env.cloud status
        finalize env.withoutSummary summary) :=
  Call.Relates.bind reports_refl _ fun _ ↦ finalize_reports summary

theorem gate_reports {passed : Bool} {summary : ExecutionSummary} {reason : String}
    {next next' : Call PyError World ℕ} (h : Call.Relates (Reports env) next next') :
    Call.Relates (Reports env) (gate float env passed summary reason next)
      (gate float env.withoutSummary passed summary reason next') := by
  cases passed with
  | false => exact conclude_reports _ _
  | true => exact h

/-! ## The stages -/

theorem installUpdates_reports (summary : ExecutionSummary) (campaign : Campaign) (x : Execution) :
    Call.Relates (Reports env) (installUpdates float env summary campaign x)
      (installUpdates float env.withoutSummary summary campaign x) := by
  refine Call.Relates.bind reports_refl _ fun _ ↦ ?_
  refine Call.Relates.bind reports_refl _ fun success ↦ ?_
  apply gate_reports
  refine Call.Relates.bind reports_refl _ fun updated ↦ ?_
  apply gate_reports
  exact conclude_reports _ _

theorem downloadUpdates_reports (summary : ExecutionSummary) (data : Json) (campaign : Campaign)
    (vehicle : Vehicle) (plan : DynamicUpdatePlan) :
    Call.Relates (Reports env)
      (downloadUpdates float fromisoformat env summary data campaign vehicle plan)
      (downloadUpdates float fromisoformat env.withoutSummary summary data campaign vehicle plan) := by
  apply gate_reports
  refine Call.Relates.bind reports_refl _ fun _ ↦ ?_
  refine Call.Relates.bind reports_refl _ fun packages ↦ ?_
  refine Call.Relates.bind reports_refl _ fun files ↦ ?_
  refine Call.Relates.bind reports_refl _ fun _ ↦ ?_
  refine Call.Relates.bind reports_refl _ fun manifest ↦ ?_
  refine Call.Relates.bind reports_refl _ fun eligible ↦ ?_
  apply gate_reports
  exact installUpdates_reports _ _ _

theorem planUpdates_reports (summary : ExecutionSummary) (data : Json) (campaign : Campaign)
    (vehicle : Vehicle) :
    Call.Relates (Reports env)
      (planUpdates float fromisoformat env summary data campaign vehicle)
      (planUpdates float fromisoformat env.withoutSummary summary data campaign vehicle) := by
  refine Call.Relates.bind reports_refl _ fun decided ↦ ?_
  apply gate_reports
  refine Call.Relates.bind reports_refl _ fun manifest ↦ ?_
  refine Call.Relates.bind reports_refl _ fun files ↦ ?_
  refine Call.Relates.bind reports_refl _ fun eligible ↦ ?_
  apply gate_reports
  refine Call.Relates.bind reports_refl _ fun plan ↦ ?_
  apply gate_reports
  exact downloadUpdates_reports _ _ _ _ _

theorem updateVehicle_reports (summary : ExecutionSummary) (transport : String) (data : Json) :
    Call.Relates (Reports env)
      (updateVehicle float fromisoformat env summary transport data)
      (updateVehicle float fromisoformat env.withoutSummary summary transport data) := by
  refine Call.Relates.bind reports_refl _ fun file ↦ ?_
  refine Call.Relates.bind reports_refl _ fun text ↦ ?_
  refine Call.Relates.bind reports_refl _ fun campaign ↦ ?_
  apply gate_reports
  refine Call.Relates.bind reports_refl _ fun vehicle ↦ ?_
  refine Call.Relates.bind reports_refl _ fun expected ↦ ?_
  apply gate_reports
  exact planUpdates_reports _ _ _ _

theorem runOver_reports (transport : String) :
    Call.Relates (Reports env) (runOver float fromisoformat env transport)
      (runOver float fromisoformat env.withoutSummary transport) := by
  refine Call.Relates.bind reports_refl (obtainCampaign float env) fun campaign ↦ ?_
  cases campaign with
  | none => exact finalize_reports _
  | some data => exact updateVehicle_reports _ transport data

/-- The summary changes nothing but the end of a run. -/
theorem main_reports :
    Call.Relates (Reports env) (main float fromisoformat env)
      (main float fromisoformat env.withoutSummary) := by
  have hconsistent : env.withoutSummary.consistent = env.consistent := rfl
  have hselect : selectTransport env.withoutSummary.transport env.withoutSummary.transportInput =
    selectTransport env.transport env.transportInput := rfl
  refine Call.Relates.bind reports_refl _ fun _ ↦ ?_
  rw [hconsistent, hselect]
  by_cases h : env.consistent = true
  · rw [if_neg (not_not.mpr h), if_neg (not_not.mpr h)]
    cases selectTransport env.transport env.transportInput with
    | none => exact finalize_reports _
    | some transport => exact runOver_reports transport
  · rw [if_pos h, if_pos h]
    exact finalize_reports _

end VehicleOta.Tcu
