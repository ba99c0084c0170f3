import VehicleOta.Tcu.Summaries
import VehicleOta.Trace.Ledger

/-!
# The jobs of a history of runs

The file of the jobs is all that one run of `main` leaves to the next about the jobs.
-/

namespace VehicleOta.Tcu

open CrashLogic TraceLogic Mqtt MQTTJobState

section Job

variable {float : List Char → Json} {cloud : Cloud} {job payload campaignId : Json}
  {id status : String} {jobs : StateFile} {w : World}

/-! ## The notified job -/

/-- A payload that names the job `id`. -/
structure Held (float : List Char → Json) (job : Json) (id : String) : Prop where
  truthy : job.truthy
  printable : Json.Printable float job
  notifiedId : notifiedId job = .ok (.str id)

theorem Held.unique {other : String} (h : Held float job id) (h' : Held float job other) :
    id = other :=
  Json.str.inj (Except.ok.inj (h.notifiedId.symm.trans h'.notifiedId))

/-- The client waits for the job `id`. -/
def Notifies (float : List Char → Json) (cloud : Cloud) (id : String) : Prop :=
  ∃ payload, notification float cloud = .ok payload ∧ notifiedId payload = .ok (.str id)

/-- The job that the client waits for has a text as its id. -/
def TextId (float : List Char → Json) (cloud : Cloud) : Prop :=
  ∀ payload, notification float cloud = .ok payload →
    ∃ id, notifiedId payload = .ok (.str id)

/-- The client passes on signed jobs only. -/
theorem accepted_of_notification (h : notification float cloud = .ok payload) :
    ∃ m, Mqtt.Accepted float cloud.signingKey m payload := by
  rw [notification] at h
  split at h
  · cases h
  · rcases accepted_of_waitForCampaign h with hnone | ⟨m, -, haccepted⟩
    · cases hnone
    · exact ⟨m, haccepted⟩

theorem held_of_notification (hfloat : ∀ text, Json.Printable float (float text))
    (h : notification float cloud = .ok payload) (hid : notifiedId payload = .ok (.str id)) :
    Held float payload id := by
  obtain ⟨m, haccepted⟩ := accepted_of_notification h
  obtain ⟨text, -, hread⟩ := haccepted.text
  refine ⟨?_, .of_loads hfloat hread, hid⟩
  have htype := haccepted.type
  cases payload with
  | dict entries =>
      cases entries with
      | nil => cases htype
      | cons e entries => rfl
  | _ => cases htype

theorem Held.exists_campaignId (h : Held float job id) :
    ∃ campaignId, job.getD "campaign_id" (.str "UNKNOWN") = .ok campaignId ∧
      Json.Printable float campaignId := by
  have hid := h.notifiedId
  cases job with
  | dict entries => exact ⟨_, rfl, printable_of_getD h.printable (.str _) rfl⟩
  | _ => cases hid

/-! ## Recording a status -/

theorem recordJob_run (cloud : Cloud) (hfloat : ∀ text, Json.Printable float (float text))
    (hcampaignId : Json.Printable float campaignId) (hreadable : Readable float w.jobs)
    (id status : String) :
    ∃ file, recordJob float cloud (.str id) campaignId status w = (.ok (), { w with jobs := file }) ∧
      Readable float file ∧ ∀ other, Completed float file other ↔
        if other = id then status = "COMPLETED" else Completed float w.jobs other := by
  obtain ⟨file, hrecord, hfile⟩ :=
    record_str hfloat hcampaignId hreadable id status (cloud.recordedAt status)
  refine ⟨file, ?_, hfile⟩
  rw [recordJob, Call.reads_bind_run, Call.ofExcept_bind_run hrecord]
  rfl

/-- The current job is not completed, and the other jobs are as they were. -/
structure Underway (float : List Char → Json) (jobs : StateFile) (job : Json) (w : World) : Prop where
  currentJob : w.currentJob = job
  completed : ∀ id, Completed float w.jobs id ↔ Completed float jobs id
  held : job = .null ∨ ∃ id, Held float job id ∧ Readable float w.jobs ∧ ¬ Completed float jobs id

/-- The jobs behind a run: the current one is completed if the run is. -/
def Settled (float : List Char → Json) (jobs : StateFile) (job : Json) (done : Prop) (w : World) :
    Prop :=
  ∀ id, Completed float w.jobs id ↔ Completed float jobs id ∨ done ∧ Held float job id

theorem Underway.settled (h : Underway float jobs job w) : Settled float jobs job False w := by
  intro id
  rw [h.completed]
  simp

theorem markCurrentJob_spec (hfloat : ∀ text, Json.Printable float (float text)) :
    Call.Triple (Underway float jobs job) (markCurrentJob float cloud status)
      (fun _ ↦ Settled float jobs job (status = "COMPLETED")) fun _ _ ↦ False := by
  intro w hw
  rw [markCurrentJob, Call.reads_bind_run, hw.currentJob]
  rcases hw.held with rfl | ⟨id, hheld, hreadable, hnot⟩
  · intro id
    rw [hw.completed]
    constructor
    · exact Or.inl
    · rintro (h | ⟨-, h⟩)
      · exact h
      · cases h.truthy
  · obtain ⟨campaignId, hcampaignId, hprintable⟩ := hheld.exists_campaignId
    obtain ⟨file, hrun, -, hfile⟩ :=
      recordJob_run cloud hfloat hprintable hreadable id status
    rw [if_pos hheld.truthy, Call.ofExcept_bind_run hheld.notifiedId,
      Call.ofExcept_bind_run hcampaignId, hrun]
    intro other
    rw [hfile, hw.completed]
    split
    · rename_i heq
      subst heq
      exact ⟨fun h ↦ Or.inr ⟨h, hheld⟩, fun h ↦ (h.resolve_left hnot).1⟩
    · rename_i hne
      exact ⟨Or.inl, fun h ↦ h.elim (fun h ↦ h) fun h ↦ absurd (h.2.unique hheld) hne⟩

/-! ## The campaign of a run -/

/-- The jobs can be read and are as they were. -/
structure Listed (float : List Char → Json) (jobs : StateFile) (job : Json) (w : World) : Prop where
  currentJob : w.currentJob = job
  readable : Readable float w.jobs
  completed : ∀ id, Completed float w.jobs id ↔ Completed float jobs id

theorem recordJob_spec (hfloat : ∀ text, Json.Printable float (float text))
    (hcampaignId : Json.Printable float campaignId) (hnot : ¬ Completed float jobs id)
    (hstatus : status ≠ "COMPLETED") :
    Call.Triple (Listed float jobs job) (recordJob float cloud (.str id) campaignId status)
      (fun _ ↦ Listed float jobs job) fun _ _ ↦ False := by
  intro w hw
  obtain ⟨file, hrun, hreadable, hfile⟩ := recordJob_run cloud hfloat hcampaignId hw.readable id status
  rw [hrun]
  refine ⟨hw.currentJob, hreadable, fun other ↦ ?_⟩
  rw [hfile, hw.completed]
  split
  · rename_i heq
    subst heq
    exact ⟨fun h ↦ absurd h hstatus, fun h ↦ absurd h hnot⟩
  · exact Iff.rfl

theorem downloadCampaignFromUrl_spec {P : World → Prop}
    (h : ∀ w localCampaign, P w → P { w with localCampaign }) (url : Json) :
    Call.Triple P (downloadCampaignFromUrl float cloud url) (fun _ ↦ P) fun _ ↦ P := by
  cases url with
  | str url =>
      apply Call.Triple.ofExcept_bind
      · intro campaign _
        exact Call.Triple.modify_bind (Call.Triple.pure fun _ h ↦ h) fun w hw ↦ h w _ hw
      · exact fun _ _ _ h ↦ h
  | _ => exact Call.Triple.raise fun _ h ↦ h

theorem acceptJob_spec (hfloat : ∀ text, Json.Printable float (float text))
    (hnot : ¬ Completed float jobs id) (hcampaignId : Json.Printable float campaignId) :
    Call.Triple (Listed float jobs job) (acceptJob float cloud payload (.str id) campaignId)
      (fun _ ↦ Listed float jobs payload) fun _ ↦ Listed float jobs payload := by
  have hrecord : ∀ {job status}, status ≠ "COMPLETED" →
      Call.Triple (Listed float jobs job) (recordJob float cloud (.str id) campaignId status)
        (fun _ ↦ Listed float jobs job) fun _ ↦ Listed float jobs payload := fun hstatus ↦
    (recordJob_spec hfloat hcampaignId hnot hstatus).conseq (fun _ h ↦ h) (fun _ _ h ↦ h)
      fun _ _ ↦ False.elim
  refine (hrecord (by decide)).bind fun _ ↦ ?_
  refine Call.Triple.modify_bind (show Call.Triple (Listed float jobs payload) _ _ _ from ?_)
    fun w hw ↦ ⟨rfl, hw.readable, hw.completed⟩
  refine Call.Triple.ofExcept_bind (fun url _ ↦ ?_) fun _ _ _ h ↦ h
  refine (hrecord (by decide)).bind fun _ ↦ ?_
  exact downloadCampaignFromUrl_spec (fun w _ hw ↦ ⟨hw.currentJob, hw.readable, hw.completed⟩) url

/-- The run takes up the job that it is notified of. -/
structure TakesUp (float : List Char → Json) (cloud : Cloud) (jobs : StateFile) (payload : Json)
    (id : String) : Prop where
  notification : notification float cloud = .ok payload
  held : Held float payload id
  admitted : ensureNotCompleted float jobs (.str id) = .ok ()

def Taken (float : List Char → Json) (cloud : Cloud) (jobs : StateFile) (w : World) : Prop :=
  ∃ payload id, TakesUp float cloud jobs payload id ∧ Listed float jobs payload w

/-- The ends of `download_campaign_from_mqtt`. -/
def Refused (float : List Char → Json) (cloud : Cloud) (w₀ : World) : JobError → World → Prop
  | .duplicate _, w => w = w₀ ∧ ∃ id, Notifies float cloud id ∧ Completed float w₀.jobs id
  | .python _, w => (w = w₀ ∧ ∀ payload id, ¬ TakesUp float cloud w₀.jobs payload id) ∨
      Taken float cloud w₀.jobs w

theorem downloadCampaignFromMqtt_spec (hfloat : ∀ text, Json.Printable float (float text))
    (htext : TextId float cloud) (w₀ : World) :
    Call.Triple (· = w₀) (downloadCampaignFromMqtt float cloud)
      (fun _ ↦ Taken float cloud w₀.jobs) (Refused float cloud w₀) := by
  rintro w rfl
  rw [downloadCampaignFromMqtt]
  cases hpayload : notification float cloud with
  | error e =>
      refine Or.inl ⟨rfl, fun payload id h ↦ ?_⟩
      cases hpayload.symm.trans h.notification
  | ok payload =>
      obtain ⟨id, hid⟩ := htext payload hpayload
      have hheld := held_of_notification hfloat hpayload hid
      obtain ⟨campaignId, hcampaignId, hprintable⟩ := hheld.exists_campaignId
      rw [Call.mapError_bind_run rfl, Call.mapError_bind_run hid,
        Call.mapError_bind_run hcampaignId, Call.reads_bind_run]
      cases hensure : ensureNotCompleted float w.jobs (.str id) with
      | error e =>
          cases e with
          | duplicate message =>
              exact ⟨rfl, id, ⟨payload, hpayload, hid⟩, completed_of_duplicate hensure⟩
          | python e =>
              refine Or.inl ⟨rfl, fun payload' id' h ↦ ?_⟩
              obtain rfl := Except.ok.inj (hpayload.symm.trans h.notification)
              obtain rfl := hheld.unique h.held
              cases hensure.symm.trans h.admitted
      | ok u =>
          have htakes : TakesUp float cloud w.jobs payload id := ⟨hpayload, hheld, hensure⟩
          rw [Call.ofExcept_bind_run rfl]
          have hlisted : Listed float w.jobs w.currentJob w :=
            ⟨rfl, readable_of_ensure hensure, fun _ ↦ Iff.rfl⟩
          refine Call.Triple.mapError ((acceptJob_spec hfloat
            (not_completed_of_ensure hensure) hprintable).conseq (fun _ h ↦ h) ?_ ?_) w hlisted
          · exact fun _ _ hw ↦ ⟨payload, id, htakes, hw⟩
          · exact fun _ _ hw ↦ Or.inr ⟨payload, id, htakes, hw⟩

theorem Listed.underway (h : Listed float jobs payload w) (hheld : Held float payload id)
    (hnot : ¬ Completed float jobs id) : Underway float jobs payload w :=
  ⟨h.currentJob, h.completed, Or.inr ⟨id, hheld, h.readable, hnot⟩⟩

end Job

section Run

variable {float : List Char → Json} {fromisoformat : String → Except PyError DateTime}
  {env : Surroundings} {job : Json} {jobs : StateFile} {id : String}

/-- The job `id` that the run is notified of, if it does. -/
def Surroundings.Notifies (env : Surroundings) (float : List Char → Json) (id : String) : Prop :=
  env.usesMqtt = true ∧ env.cloud.published = .ok () ∧ Tcu.Notifies float env.cloud id

/-- The run takes up the job that it is notified of. -/
def Surroundings.TakesUp (env : Surroundings) (float : List Char → Json) (jobs : StateFile)
    (id : String) : Prop :=
  env.Notifies float id ∧ ensureNotCompleted float jobs (.str id) = .ok ()

/-- The campaign can be downloaded, and the job that was taken up is the current one. -/
def Ready (float : List Char → Json) (env : Surroundings) (w₀ w : World) : Prop :=
  ∃ job, Underway float w₀.jobs job w ∧ ∀ id, Held float job id ↔ env.TakesUp float w₀.jobs id

/-- The run is notified of a job that is completed, and nothing has been changed. -/
def Duplicate (float : List Char → Json) (env : Surroundings) (w₀ w : World) : Prop :=
  w = w₀ ∧ ∃ id, env.Notifies float id ∧ Completed float w₀.jobs id

def Answered (float : List Char → Json) (env : Surroundings) (w₀ : World) :
    Except JobError Json → World → Prop
  | .error (.duplicate _) => Duplicate float env w₀
  | _ => Ready float env w₀

def Obtained (float : List Char → Json) (env : Surroundings) (w₀ : World) :
    Option Json → World → Prop
  | none => Duplicate float env w₀
  | some _ => Ready float env w₀

theorem TakesUp.surroundings {payload : Json} (h : TakesUp float env.cloud jobs payload id)
    (hmqtt : env.usesMqtt = true) (hpublished : env.cloud.published = .ok ()) (other : String) :
    Held float payload other ↔ env.TakesUp float jobs other := by
  constructor
  · intro hheld
    obtain rfl := h.held.unique hheld
    exact ⟨⟨hmqtt, hpublished, payload, h.notification, h.held.notifiedId⟩, h.admitted⟩
  · rintro ⟨⟨-, -, payload', hpayload, hid⟩, -⟩
    obtain rfl := Except.ok.inj (h.notification.symm.trans hpayload)
    obtain rfl := Json.str.inj (Except.ok.inj (h.held.notifiedId.symm.trans hid))
    exact h.held

theorem not_held_null : ¬ Held float .null id := fun h ↦ by cases h.truthy

/-- A run without a notified job. -/
theorem underway_null {w : World} (h : w.currentJob = .null) : Underway float w.jobs .null w :=
  ⟨h, fun _ ↦ Iff.rfl, Or.inl rfl⟩

theorem Taken.ready {w₀ w : World} (h : Taken float env.cloud w₀.jobs w)
    (hmqtt : env.usesMqtt = true) (hpublished : env.cloud.published = .ok ()) :
    Ready float env w₀ w := by
  obtain ⟨payload, id, htakes, hlisted⟩ := h
  exact ⟨payload, hlisted.underway htakes.held (not_completed_of_ensure htakes.admitted),
    htakes.surroundings hmqtt hpublished⟩

theorem ready_null {w : World} (hcurrent : w.currentJob = .null)
    (h : ∀ id, ¬ env.TakesUp float w.jobs id) : Ready float env w w :=
  ⟨.null, underway_null hcurrent, fun id ↦ ⟨fun hheld ↦ absurd hheld not_held_null,
    fun htakes ↦ absurd htakes (h id)⟩⟩

theorem notifiedCampaign_spec (hfloat : ∀ text, Json.Printable float (float text))
    (htext : TextId float env.cloud) (hmqtt : env.usesMqtt = true) {w₀ : World}
    (hcurrent : w₀.currentJob = .null) {E : PyError → World → Prop} :
    Call.Triple (· = w₀) (Call.attempt (notifiedCampaign float env)) (Answered float env w₀) E := by
  apply Call.Triple.attempt
  rintro w rfl
  rw [notifiedCampaign]
  cases hpublished : env.cloud.published with
  | error e =>
      refine ready_null hcurrent fun id htakes ↦ ?_
      cases hpublished.symm.trans htakes.1.2.1
  | ok u =>
      rw [Call.mapError_bind_run rfl]
      refine (downloadCampaignFromMqtt_spec hfloat htext w).conseq (fun _ h ↦ h) ?_ ?_ w rfl
      · exact fun _ _ htaken ↦ htaken.ready hmqtt hpublished
      · rintro (message | e) w' hrefused
        · obtain ⟨heq, id, hnotifies, hcompleted⟩ := hrefused
          exact ⟨heq, id, ⟨hmqtt, hpublished, hnotifies⟩, hcompleted⟩
        · rcases hrefused with ⟨rfl, hnone⟩ | htaken
          · refine ready_null hcurrent fun id htakes ↦ ?_
            obtain ⟨⟨-, -, payload, hpayload, hid⟩, hadmitted⟩ := htakes
            exact hnone payload id ⟨hpayload, held_of_notification hfloat hpayload hid, hadmitted⟩
          · exact htaken.ready hmqtt hpublished

theorem obtainCampaign_spec (hfloat : ∀ text, Json.Printable float (float text))
    (htext : TextId float env.cloud) {w₀ : World} (hcurrent : w₀.currentJob = .null) :
    Call.Triple (· = w₀) (obtainCampaign float env) (Obtained float env w₀)
      fun _ w ↦ ∀ id, Completed float w.jobs id ↔ Completed float w₀.jobs id := by
  have hfallback : Call.Triple (Ready float env w₀) (some <$> downloadCampaign float env.cloud)
      (Obtained float env w₀)
      fun _ w ↦ ∀ id, Completed float w.jobs id ↔ Completed float w₀.jobs id := by
    have hdownload := @downloadCampaignFromUrl_spec float env.cloud (Ready float env w₀) ?_
      (.str env.cloud.campaignUrl)
    · refine Call.Triple.bind (hdownload.conseq (fun _ h ↦ h) (fun _ _ h ↦ h) ?_) fun data ↦
        Call.Triple.pure fun _ h ↦ h
      rintro - w ⟨job, hunderway, -⟩
      exact hunderway.completed
    · rintro w localCampaign ⟨job, hunderway, hheld⟩
      exact ⟨job, ⟨hunderway.currentJob, hunderway.completed, hunderway.held⟩, hheld⟩
  rw [obtainCampaign]
  cases hmqtt : env.usesMqtt with
  | false =>
      rintro w rfl
      refine hfallback w (ready_null hcurrent fun id htakes ↦ ?_)
      cases hmqtt.symm.trans htakes.1.1
  | true =>
      refine (notifiedCampaign_spec hfloat htext hmqtt hcurrent).bind fun answer ↦ ?_
      cases answer with
      | ok data => exact Call.Triple.pure fun _ h ↦ h
      | error e =>
          cases e with
          | duplicate message => exact Call.Triple.pure fun _ h ↦ h
          | python e => exact hfallback

/-! ## The stages -/

/-- The jobs behind an exit code. -/
def Exited (float : List Char → Json) (jobs : StateFile) (job : Json) (code : ℕ) (w : World) : Prop :=
  Settled float jobs job (code = 0) w

def Raised (float : List Char → Json) (jobs : StateFile) (job : Json) (_ : PyError) (w : World) :
    Prop :=
  Settled float jobs job False w

theorem raised_of_underway (e : PyError) (w : World) (h : Underway float jobs job w) :
    Raised float jobs job e w :=
  h.settled

section Writable

variable (hfloat : ∀ text, Json.Printable float (float text)) (hwritable : env.Writable)

include hfloat hwritable

/-- The job gets its status and the run ends with the exit code of that status. -/
theorem conclude_jobs {status : String} {summary : ExecutionSummary}
    (hstatus : summary.status = status) :
    Call.Triple (Underway float jobs job)
      (do
        markCurrentJob float env.cloud status
        finalize env summary)
      (Exited float jobs job) (Raised float jobs job) := by
  refine Call.Triple.bind ((markCurrentJob_spec hfloat).conseq (fun _ h ↦ h) (fun _ _ h ↦ h)
    fun _ _ ↦ False.elim) fun _ ↦ ?_
  apply triple_finalize
  · intro w hw id
    rw [(untouched_summary summary w).jobs, hw id, hstatus]
    split
    · rename_i hdone
      simp [hdone]
    · rename_i hfailed
      simp [hfailed]
  · exact fun e w hwrite _ ↦ absurd hwrite (hwritable summary e)

theorem abort_jobs (summary : ExecutionSummary) (reason : String) :
    Call.Triple (Underway float jobs job) (abort float env summary reason) (Exited float jobs job)
      (Raised float jobs job) :=
  conclude_jobs hfloat hwritable rfl

theorem installUpdates_jobs (summary : ExecutionSummary) (campaign : Campaign) (x : Execution) :
    Call.Triple (Underway float jobs job) (installUpdates float env summary campaign x)
      (Exited float jobs job) (Raised float jobs job) := by
  refine Call.Triple.modify_bind (show Call.Triple (Underway float jobs job) _ _ _ from ?_)
    fun w hw ↦ ⟨hw.currentJob, hw.completed, hw.held⟩
  refine Call.Triple.ofExcept_bind (fun success _ ↦ ?_) fun e w _ ↦ raised_of_underway e w
  refine triple_gate (abort_jobs hfloat hwritable _ _) fun _ ↦ ?_
  refine Call.Triple.bind (Q := fun _ ↦ Underway float jobs job)
    (triple_validateInstallation ?_ ?_) fun updated ↦ ?_
  · exact fun w _ _ hw _ ↦ ⟨hw.currentJob, hw.completed, hw.held⟩
  · exact fun w e _ hw ↦ raised_of_underway e _ ⟨hw.currentJob, hw.completed, hw.held⟩
  · exact triple_gate (abort_jobs hfloat hwritable _ _) fun _ ↦ conclude_jobs hfloat hwritable rfl

theorem updateVehicle_jobs (summary : ExecutionSummary) (transport : String) (data : Json) :
    Call.Triple (Underway float jobs job)
      (updateVehicle float fromisoformat env summary transport data)
      (Exited float jobs job) (Raised float jobs job) := by
  apply updateVehicle_spec
  · exact {
      abort := abort_jobs hfloat hwritable
      raised := raised_of_underway
      trust := fun w _ hw ↦ ⟨hw.currentJob, hw.completed, hw.held⟩
      files := fun w _ hw ↦ ⟨hw.currentJob, hw.completed, hw.held⟩ }
  · exact fun g _ ↦ (installUpdates_jobs hfloat hwritable _ _ _).strengthen fun w hw ↦ hw.2

end Writable

/-! ## One run -/

theorem obtainCampaign_duplicate {w : World} (hnotifies : env.Notifies float id)
    (hcompleted : Completed float w.jobs id) : obtainCampaign float env w = (.ok none, w) := by
  obtain ⟨hmqtt, hpublished, payload, hpayload, hid⟩ := hnotifies
  obtain ⟨campaignId, hcampaignId⟩ :
      ∃ campaignId, payload.getD "campaign_id" (.str "UNKNOWN") = .ok campaignId := by
    obtain ⟨campaignId, hcampaignId, -⟩ := bind_eq_ok.mp hid
    exact ⟨campaignId, hcampaignId⟩
  have hrun : notifiedCampaign float env w =
      (.error (.duplicate ("MQTT job already completed: " ++ id)), w) := by
    rw [notifiedCampaign, Call.mapError_bind_run hpublished, downloadCampaignFromMqtt,
      Call.mapError_bind_run hpayload, Call.mapError_bind_run hid,
      Call.mapError_bind_run hcampaignId, Call.reads_bind_run,
      ensureNotCompleted_duplicate hcompleted]
    rfl
  have hattempt : (Call.attempt (notifiedCampaign float env) : Call PyError World _) w =
      (.ok (.error (.duplicate ("MQTT job already completed: " ++ id))), w) := by
    rw [Call.attempt, hrun]
  rw [obtainCampaign, if_pos hmqtt, Call.bind_run_ok hattempt]
  rfl

/-- The jobs that are completed behind a run whose summary can be written. -/
def Marks (float : List Char → Json) (env : Surroundings) (w : World)
    (outcome : Except PyError ℕ × World) : Prop :=
  ∀ id, Completed float outcome.2.jobs id ↔ Completed float w.jobs id ∨
    outcome.1 = .ok 0 ∧ env.TakesUp float w.jobs id

/-- The run ends with the summary of a failure: with the exit code 1, or with the exception of
writing the summary. -/
structure Fails (env : Surroundings) (w : World) (outcome : Except PyError ℕ × World) : Prop where
  result : outcome.1 = .ok 1 ∨
    ∃ summary e, summary.status = "FAILED" ∧ env.Unwritable summary e ∧ outcome.1 = .error e
  untouched : Untouched w outcome.2
  summary : outcome.2.summary = w.summary ∨
    ∃ summary, summary.status = "FAILED" ∧ outcome.2.summary = some summary

theorem finalize_failed {summary : ExecutionSummary} (hstatus : summary.status = "FAILED")
    (w : World) : Fails env w (finalize env summary w) := by
  have hspec : Call.Triple (· = w) (finalize env summary) (fun code w' ↦ Fails env w (.ok code, w'))
      fun e w' ↦ Fails env w (.error e, w') := by
    apply triple_finalize
    · rintro w' rfl
      refine ⟨Or.inl ?_, untouched_summary summary w', ?_⟩
      · rw [hstatus]
        rfl
      · dsimp only
        split
        · exact Or.inr ⟨summary, hstatus, rfl⟩
        · exact Or.inl rfl
    · rintro e w' hwrite rfl
      exact ⟨Or.inr ⟨summary, e, hstatus, hwrite, rfl⟩, .refl _, Or.inl rfl⟩
  have hsettles := hspec w rfl
  cases hrun : finalize env summary w with
  | mk result w' =>
      rw [hrun] at hsettles
      cases result with
      | ok code => exact hsettles
      | error e => exact hsettles

theorem Fails.marks {w : World} {outcome : Except PyError ℕ × World} (h : Fails env w outcome) :
    Marks float env w outcome := by
  intro id
  have hcode : outcome.1 ≠ .ok 0 := by
    rcases h.result with hone | ⟨summary, e, -, -, he⟩
    · simp [hone]
    · simp [he]
  rw [h.untouched.jobs]
  simp [hcode]

theorem runOver_marks (hfloat : ∀ text, Json.Printable float (float text))
    (hwritable : env.Writable) (htext : TextId float env.cloud) {w₀ : World}
    (hcurrent : w₀.currentJob = .null) (transport : String) :
    Marks float env w₀ (runOver float fromisoformat env transport w₀) := by
  have hspec : Call.Triple (· = w₀) (runOver float fromisoformat env transport)
      (fun code w ↦ ∀ id, Completed float w.jobs id ↔ Completed float w₀.jobs id ∨
        code = 0 ∧ env.TakesUp float w₀.jobs id)
      fun _ w ↦ ∀ id, Completed float w.jobs id ↔ Completed float w₀.jobs id := by
    refine (obtainCampaign_spec hfloat htext hcurrent).bind fun campaign ↦ ?_
    cases campaign with
    | none =>
        apply triple_finalize
        · rintro w ⟨rfl, -⟩ id
          rw [(untouched_summary _ w).jobs]
          simp
        · exact fun e w hwrite _ ↦ absurd hwrite (hwritable _ e)
    | some data =>
        rintro w ⟨job, hunderway, hheld⟩
        refine (updateVehicle_jobs hfloat hwritable _ transport data).conseq (fun _ h ↦ h) ?_ ?_ w
          hunderway
        · intro code w' hexited id
          rw [hexited id, hheld]
        · intro e w' hraised id
          rw [hraised id]
          simp
  intro id
  rcases Call.settles_iff.mp (hspec w₀ rfl) with ⟨code, hcode, hjobs⟩ | ⟨e, he, hjobs⟩
  · rw [hcode, hjobs id, Except.ok.injEq]
  · rw [he, hjobs id]
    simp

theorem main_marks (hfloat : ∀ text, Json.Printable float (float text)) (hwritable : env.Writable)
    (htext : TextId float env.cloud) (w : World) :
    Marks float env w (main float fromisoformat env w) := by
  rw [main, Call.modify_bind_run]
  split
  · exact (finalize_failed rfl { w with currentJob := .null }).marks
  · cases selectTransport env.transport env.transportInput with
    | none => exact (finalize_failed rfl { w with currentJob := .null }).marks
    | some transport =>
        exact @runOver_marks float fromisoformat env hfloat hwritable htext
          { w with currentJob := .null } rfl transport

/-- A run that is notified of a completed job fails and does nothing else. -/
theorem main_refuses (w : World) (hnotifies : env.Notifies float id)
    (hcompleted : Completed float w.jobs id) : Fails env w (main float fromisoformat env w) := by
  have hfails : Fails env { w with currentJob := .null } (main float fromisoformat env w) := by
    rw [main, Call.modify_bind_run]
    split
    · exact finalize_failed rfl _
    · cases selectTransport env.transport env.transportInput with
      | none => exact finalize_failed rfl _
      | some transport =>
          have hobtain := @obtainCampaign_duplicate float env id { w with currentJob := .null }
            hnotifies hcompleted
          change Fails env _ (runOver float fromisoformat env transport _)
          rw [runOver, Call.bind_run_ok hobtain]
          exact finalize_failed rfl _
  have hstart : Untouched w { w with currentJob := .null } := ⟨rfl, rfl, rfl, rfl, rfl, rfl⟩
  exact ⟨hfails.result, hstart.trans hfails.untouched, hfails.summary⟩

end Run

/-! ## Histories -/

section Histories

variable (float : List Char → Json) (fromisoformat : String → Except PyError DateTime)

/-- A run in its surroundings on the file of the jobs; it finds everything else as it may be. -/
def runStep (jobs : StateFile) (start : Surroundings × World) :
    StateFile × Except PyError ℕ × World :=
  let outcome := main float fromisoformat start.1 { start.2 with jobs }
  (outcome.2.jobs, outcome)

/-- A run that takes up the job and, but for its summary, ends with the exit code 0. -/
def Installs (jobs : StateFile) (start : Surroundings × World) (id : String) : Prop :=
  start.1.TakesUp float jobs id ∧
    (runStep float fromisoformat jobs (start.1.withoutSummary, start.2)).2.1 = .ok 0

/-- The job id of every notification is a text. -/
def TextIds (starts : List (Surroundings × World)) : Prop :=
  ∀ start ∈ starts, TextId float start.1.cloud

variable {float fromisoformat} {jobs : StateFile} {start : Surroundings × World} {id : String}

theorem installs_of_exitCode (htakes : start.1.TakesUp float jobs id)
    (hcode : (runStep float fromisoformat jobs start).2.1 = .ok 0) :
    Installs float fromisoformat jobs start id := by
  refine ⟨htakes, ?_⟩
  have hreports := @main_reports float fromisoformat start.1 { start.2 with jobs }
  rcases hreports.result with heq | ⟨summary, e, -, -, he⟩
  · exact heq.symm.trans hcode
  · cases he.symm.trans hcode

/-- A run that installs a job has the exit code 0, or its summary raises behind the success. -/
theorem Installs.result (h : Installs float fromisoformat jobs start id) :
    (runStep float fromisoformat jobs start).2.1 = .ok 0 ∨ ∃ summary e,
      summary.status = "COMPLETED" ∧ start.1.Unwritable summary e ∧
        (runStep float fromisoformat jobs start).2.1 = .error e := by
  have hreports := @main_reports float fromisoformat start.1 { start.2 with jobs }
  rcases hreports.result with heq | ⟨summary, e, hwrite, hsilent, he⟩
  · exact Or.inl (heq.trans h.2)
  · refine Or.inr ⟨summary, e, ?_, hwrite, he⟩
    have hzero := Except.ok.inj (hsilent.symm.trans h.2)
    by_contra hstatus
    rw [if_neg hstatus] at hzero
    cases hzero

theorem completed_runStep (hfloat : ∀ text, Json.Printable float (float text))
    (htext : TextId float start.1.cloud) :
    Completed float (runStep float fromisoformat jobs start).1 id ↔
      Completed float jobs id ∨ Installs float fromisoformat jobs start id := by
  have hreports := @main_reports float fromisoformat start.1 { start.2 with jobs }
  have hjobs : (runStep float fromisoformat jobs start).1 =
      (runStep float fromisoformat jobs (start.1.withoutSummary, start.2)).1 :=
    hreports.untouched.jobs
  rw [hjobs, Installs, and_comm]
  exact @main_marks float fromisoformat start.1.withoutSummary hfloat writable_withoutSummary
    htext { start.2 with jobs } id

theorem ledger_completed (hfloat : ∀ text, Json.Printable float (float text)) :
    Ledger (runStep float fromisoformat) (fun start ↦ TextId float start.1.cloud)
      (Completed float) (Installs float fromisoformat) where
  holds_step := fun _ _ _ htext ↦ completed_runStep hfloat htext
  fresh := fun _ _ _ h ↦ not_completed_of_ensure h.1.2

end Histories

end VehicleOta.Tcu
