import VehicleOta.Tcu.OtaRun

/-!
# The stages of a run

What a run has found when it comes to the execution, and one rule for everything before.
-/

namespace VehicleOta.Tcu

open CrashLogic TraceLogic

/-! ## Rules for the calls -/

section Rules

variable {float : List Char → Json} {env : Surroundings} {P : World → Prop}
  {Q : ℕ → World → Prop} {E : PyError → World → Prop}

theorem triple_persist {ι σ α : Type} {get : World → σ} {set : World → σ → World}
    {m : Persist ι σ PyError α} {R : α → World → Prop}
    (hok : ∀ w a, P w → (m (get w)).result = .ok a → R a (set w (m.store (get w))))
    (herror : ∀ w e, P w → (m (get w)).result = .error e → E e (set w (m.store (get w)))) :
    Call.Triple P (persist get set m) R E := by
  intro w hw
  unfold persist
  cases hresult : (m (get w)).result with
  | ok a => exact hok w a hw hresult
  | error e => exact herror w e hw hresult

/-- The summary is to be written, and that raises the exception. -/
def Surroundings.Unwritable (env : Surroundings) (summary : ExecutionSummary) (e : PyError) : Prop :=
  env.summaryEnabled = true ∧ env.summaryWritten summary = .error e

theorem triple_writeSummary {summary : ExecutionSummary} {R : Unit → World → Prop}
    (hok : ∀ w, P w → R () (if env.summaryEnabled then { w with summary := some summary } else w))
    (herror : ∀ e w, env.Unwritable summary e → P w → E e w) :
    Call.Triple P (writeSummary env summary) R E := by
  rw [writeSummary]
  split
  · rename_i henabled
    apply Call.Triple.ofExcept_bind
    · intro _ _
      apply Call.Triple.modify
      intro w hw
      have hwritten := hok w hw
      rwa [if_pos henabled] at hwritten
    · exact fun e w he hw ↦ herror e w ⟨henabled, he⟩ hw
  · rename_i hdisabled
    apply Call.Triple.pure
    intro w hw
    have hwritten := hok w hw
    rwa [if_neg hdisabled] at hwritten

theorem triple_finalize {summary : ExecutionSummary}
    (hok : ∀ w, P w → Q (if summary.status = "COMPLETED" then 0 else 1)
      (if env.summaryEnabled then { w with summary := some summary } else w))
    (herror : ∀ e w, env.Unwritable summary e → P w → E e w) :
    Call.Triple P (finalize env summary) Q E :=
  (triple_writeSummary (R := fun _ ↦ Q (if summary.status = "COMPLETED" then 0 else 1)) hok
    herror).bind fun _ ↦ Call.Triple.pure fun _ hw ↦ hw

theorem triple_gate {passed : Bool} {summary : ExecutionSummary} {reason : String}
    {next : Call PyError World ℕ}
    (habort : Call.Triple P (abort float env summary reason) Q E)
    (hnext : passed = true → Call.Triple P next Q E) :
    Call.Triple P (gate float env passed summary reason next) Q E := by
  cases passed with
  | false => exact habort
  | true => exact hnext rfl

/-- What a validation answers, as a relation. -/
def Validates (env : Surroundings) (campaign : Campaign) (stores : PostInstallValidator.Stores)
    (updated : Bool) : Prop :=
  ∃ answer, (PostInstallValidator.validate campaign
    (env.polls.map (·, false) ++ [(env.lastPoll, true)]) stores).1 = .ok answer ∧
      updated = answer.getD false

theorem triple_validateInstallation {campaign : Campaign} {R : Bool → World → Prop}
    (hok : ∀ w updated stores, P w → Validates env campaign w.stores updated →
      R updated { w with stores })
    (herror : ∀ w e stores, P w → E e { w with stores }) :
    Call.Triple P (validateInstallation env campaign) R E := by
  intro w hw
  unfold validateInstallation
  cases hvalidate : PostInstallValidator.validate campaign
    (env.polls.map (·, false) ++ [(env.lastPoll, true)]) w.stores with
  | mk result stores =>
      cases result with
      | ok answer => exact hok w _ stores hw ⟨answer, by rw [hvalidate], rfl⟩
      | error e => exact herror w e stores hw

end Rules

/-! ## The way to the execution -/

/-- What a run has found when it comes to the execution. -/
structure Passage where
  summary : ExecutionSummary
  text : List Char
  campaign : LoadedCampaign
  vehicle : Vehicle
  decided : Campaign
  planEligible : List EligibleUpdate
  plan : DynamicUpdatePlan
  packages : List Package
  files : Files
  manifest : Manifest
  eligible : List EligibleUpdate

section Stages

variable (float : List Char → Json) (fromisoformat : String → Except PyError DateTime)
  (env : Surroundings) (transport : String) (data : Json)

/-- The manifest is the one of the reading, and `UptaneVerifier` accepts the release. -/
def Loads (reading : ReleaseReading) (files : Files) (version : String) (manifest : Manifest) :
    Prop :=
  ∃ read trust targets, reading.manifest version = .ok read ∧
    (UptaneVerifier.verify fromisoformat (releaseOf reading files version) trust).result =
      .ok targets ∧
    manifest = { releaseVersion := read.1
                 packages := read.2
                 trustedTargets := Dict.ofPairs (targets.map fun t ↦ (t.file, trustedOf t)) }

/-- Everything is checked, on the way from states that satisfy `P`. -/
structure Passage.Checked (g : Passage) (P : World → Prop) : Prop where
  origin : ∃ w, P w ∧ w.localCampaign = some g.text
  campaign : (readJson float g.text >>= CampaignManager.loadCampaign).map
    (fun campaign ↦ { campaign with transport }) = .ok g.campaign
  valid : CampaignValidator.validate g.campaign = true
  vehicle : env.discovered transport = .ok g.vehicle
  expected : validateExpectedEcuVersions float env g.vehicle = .ok true
  compatible : CompatibilityValidator.validate env.resolver g.vehicle g.campaign.toCampaign =
    .ok (true, g.decided)
  planEligible : ∃ planned files,
    Loads fromisoformat env.planned files g.campaign.releaseVersion planned ∧
      FirmwareCompatibilityValidator.validate planned files false g.decided g.vehicle [] =
        .ok g.planEligible
  planned : Tcu.plan env.resolver g.vehicle g.decided g.planEligible = .ok g.plan
  executable : g.plan.executable = true
  names : selectedUpdateNames g.plan ≠ []
  downloaded : ∃ before, (downloadFirmware env.cloud.respond data (selectedUpdateNames g.plan)
      before).result = .ok ⟨⟩ ∧ g.files = (downloadFirmware env.cloud.respond data
        (selectedUpdateNames g.plan)).store before
  packages : env.repository = .ok g.packages
  inventory : buildInventory g.files g.packages (selectedUpdateNames g.plan) = .ok ()
  manifest : Loads fromisoformat env.downloaded g.files g.decided.releaseVersion g.manifest
  eligible : FirmwareCompatibilityValidator.validate g.manifest g.files true g.decided g.vehicle
    (selectedUpdateNames g.plan) = .ok g.eligible
  complete : g.eligible.length = (selectedUpdateNames g.plan).length

/-- The execution that a run comes to. -/
def Passage.execution (g : Passage) : Execution :=
  Tcu.execution env g.vehicle g.plan g.eligible g.packages g.files

/-- The conditions on what may hold on the way, and at the ends. -/
structure Through (P : World → Prop) (Q : ℕ → World → Prop) (E : PyError → World → Prop) : Prop where
  abort : ∀ summary reason, Call.Triple P (abort float env summary reason) Q E
  raised : ∀ e w, P w → E e w
  trust : ∀ w trust, P w → P { w with trust }
  files : ∀ w files, P w → P { w with files }

end Stages

section Stages

variable {float : List Char → Json} {fromisoformat : String → Except PyError DateTime}
  {env : Surroundings} {transport : String} {data : Json} {P : World → Prop}
  {Q : ℕ → World → Prop} {E : PyError → World → Prop}

theorem loadManifest_spec (h : Through float env P Q E) (reading : ReleaseReading)
    (version : String) (files : Files) :
    Call.Triple (fun w ↦ w.files = files ∧ P w) (loadManifest fromisoformat reading version)
      (fun manifest w ↦ Loads fromisoformat reading files version manifest ∧ w.files = files ∧ P w)
      E := by
  refine Call.Triple.ofExcept_bind (fun read hread ↦ ?_) fun e w _ hw ↦ h.raised e w hw.2
  refine Call.Triple.reads_bind fun found ↦ ?_
  refine Call.Triple.bind (Q := fun targets w ↦ Loads fromisoformat reading files version
      { releaseVersion := read.1
        packages := read.2
        trustedTargets := Dict.ofPairs (targets.map fun t ↦ (t.file, trustedOf t)) } ∧
      w.files = files ∧ P w)
    (triple_persist ?_ ?_) fun targets ↦ Call.Triple.pure fun _ h ↦ h
  · rintro w targets ⟨rfl, rfl, hw⟩ htargets
    exact ⟨⟨read, _, targets, hread, htargets, rfl⟩, rfl, h.trust w _ hw⟩
  · rintro w e ⟨-, -, hw⟩ -
    exact h.raised e _ (h.trust w _ hw)

theorem updateVehicle_spec (h : Through float env P Q E)
    (hinstall : ∀ g : Passage, g.Checked float fromisoformat env transport data P →
      Call.Triple (fun w ↦ w.files = g.files ∧ P w)
        (installUpdates float env g.summary g.decided (g.execution env)) Q E)
    (summary : ExecutionSummary) :
    Call.Triple P (updateVehicle float fromisoformat env summary transport data) Q E := by
  have hraised : ∀ {α : Type} {x : Except PyError α} (e : PyError) (w : World),
      x = .error e → P w → E e w := fun e w _ ↦ h.raised e w
  -- the campaign
  refine Call.Triple.fact_bind (φ := fun file ↦ ∃ w, P w ∧ w.localCampaign = file) (Q := fun _ ↦ P)
    (Call.Triple.reads fun w hw ↦ ⟨⟨w, hw, rfl⟩, hw⟩) fun file horigin ↦ ?_
  cases file with
  | none => exact Call.Triple.ofExcept_bind (fun _ hnone ↦ by cases hnone) hraised
  | some text =>
  refine Call.Triple.ofExcept_bind (fun text' htext ↦ ?_) hraised
  obtain rfl := Except.ok.inj htext
  refine Call.Triple.ofExcept_bind (fun loaded hloaded ↦ ?_) hraised
  refine triple_gate (h.abort _ _) fun hvalid ↦ ?_
  -- the vehicle
  refine Call.Triple.ofExcept_bind (fun vehicle hvehicle ↦ ?_) hraised
  refine Call.Triple.ofExcept_bind (fun expected hexpected ↦ ?_) hraised
  refine triple_gate (h.abort _ _) fun hmatched ↦ ?_
  subst hmatched
  -- the plan
  refine Call.Triple.ofExcept_bind (fun decided hdecided ↦ ?_) hraised
  refine triple_gate (h.abort _ _) fun hcompatible ↦ ?_
  refine Call.Triple.bind (Q := fun manifest w ↦
      Loads fromisoformat env.planned w.files loaded.releaseVersion manifest ∧ P w)
    ?_ fun planned ↦ ?_
  · rintro w hw
    refine ((loadManifest_spec h env.planned loaded.releaseVersion w.files).weaken ?_) w ⟨rfl, hw⟩
    rintro manifest w' ⟨hloads, hfiles, hw'⟩
    exact ⟨hfiles ▸ hloads, hw'⟩
  refine Call.Triple.fact_bind
    (φ := fun files ↦ Loads fromisoformat env.planned files loaded.releaseVersion planned)
    (Q := fun _ ↦ P) (Call.Triple.reads fun _ hw ↦ hw) fun plannedFiles hplanned ↦ ?_
  refine Call.Triple.ofExcept_bind (fun planEligible hplanEligible ↦ ?_) hraised
  refine triple_gate (h.abort _ _) fun _ ↦ ?_
  refine Call.Triple.ofExcept_bind (fun plan hplan ↦ ?_) hraised
  refine triple_gate (h.abort _ _) fun hexecutable ↦ ?_
  -- the download
  refine triple_gate (h.abort _ _) fun hnames ↦ ?_
  refine Call.Triple.fact_bind (φ := fun _ ↦ True)
    (Q := fun _ w ↦ (∃ before, (downloadFirmware env.cloud.respond data (selectedUpdateNames plan)
      before).result = .ok ⟨⟩ ∧ w.files = (downloadFirmware env.cloud.respond data
        (selectedUpdateNames plan)).store before) ∧ P w)
    (triple_persist ?_ ?_) fun _ _ ↦ ?_
  · exact fun w _ hw hresult ↦ ⟨trivial, ⟨w.files, hresult, rfl⟩, h.files w _ hw⟩
  · exact fun w e hw _ ↦ h.raised e _ (h.files w _ hw)
  refine Call.Triple.ofExcept_bind (fun packages hpackages ↦ ?_) fun e w _ hw ↦ h.raised e w hw.2
  refine Call.Triple.fact_bind (φ := fun files ↦ ∃ before, (downloadFirmware env.cloud.respond data
      (selectedUpdateNames plan) before).result = .ok ⟨⟩ ∧ files = (downloadFirmware
        env.cloud.respond data (selectedUpdateNames plan)).store before)
    (Q := fun files w ↦ w.files = files ∧ P w)
    (Call.Triple.reads fun w hw ↦ ⟨hw.1, rfl, hw.2⟩) fun files hdownloaded ↦ ?_
  have hlate : ∀ {α : Type} {x : Except PyError α} (e : PyError) (w : World),
      x = .error e → w.files = files ∧ P w → E e w := fun e w _ hw ↦ h.raised e w hw.2
  refine Call.Triple.ofExcept_bind (fun _ hinventory ↦ ?_) hlate
  refine (loadManifest_spec h _ _ _).fact_bind fun manifest hmanifest ↦ ?_
  refine Call.Triple.ofExcept_bind (fun eligible heligible ↦ ?_) hlate
  refine triple_gate ((h.abort _ _).strengthen fun w hw ↦ hw.2) fun hcomplete ↦ ?_
  exact hinstall
    { summary := _, text, campaign := { loaded with transport }, vehicle, decided := decided.2,
      planEligible, plan, packages, files, manifest, eligible }
    { origin := horigin
      campaign := by rw [hloaded]; rfl
      valid := hvalid
      vehicle := hvehicle
      expected := hexpected
      compatible := by rw [← hcompatible]; exact hdecided
      planEligible := ⟨planned, plannedFiles, hplanned, hplanEligible⟩
      planned := hplan
      executable := hexecutable
      names := by simpa using hnames
      downloaded := hdownloaded
      packages := hpackages
      inventory := hinventory
      manifest := hmanifest
      eligible := heligible
      complete := by simpa using hcomplete }

end Stages

/-! ## What the bookkeeping keeps -/

/-- A property of the files, the log and the stores only. -/
structure Bystander (P : World → Prop) : Prop where
  jobs : ∀ w jobs, P w → P { w with jobs }
  currentJob : ∀ w currentJob, P w → P { w with currentJob }
  localCampaign : ∀ w localCampaign, P w → P { w with localCampaign }
  summary : ∀ w summary, P w → P { w with summary }

theorem bystander_log (log : List Event) : Bystander fun w ↦ w.log = log where
  jobs := fun _ _ h ↦ h
  currentJob := fun _ _ h ↦ h
  localCampaign := fun _ _ h ↦ h
  summary := fun _ _ h ↦ h

section Bookkeeping

variable {float : List Char → Json} {env : Surroundings} {P : World → Prop}

theorem recordJob_keeps (h : Bystander P) (cloud : Cloud) (jobId campaignId : Json)
    (status : String) :
    Call.Triple P (recordJob float cloud jobId campaignId status) (fun _ ↦ P) fun _ ↦ P := by
  refine Call.Triple.reads_bind fun file ↦ Call.Triple.strengthen ?_ fun w hw ↦ hw.2
  refine Call.Triple.ofExcept_bind (fun file _ ↦ ?_) fun _ _ _ hw ↦ hw
  exact Call.Triple.modify fun w hw ↦ h.jobs w file hw

theorem markCurrentJob_keeps (h : Bystander P) (cloud : Cloud) (status : String) :
    Call.Triple P (markCurrentJob float cloud status) (fun _ ↦ P) fun _ ↦ P := by
  refine Call.Triple.reads_bind fun job ↦ Call.Triple.strengthen ?_ fun w hw ↦ hw.2
  split
  · refine Call.Triple.ofExcept_bind (fun jobId _ ↦ ?_) fun _ _ _ hw ↦ hw
    refine Call.Triple.ofExcept_bind (fun campaignId _ ↦ ?_) fun _ _ _ hw ↦ hw
    exact recordJob_keeps h cloud jobId campaignId status
  · exact Call.Triple.pure fun _ hw ↦ hw

theorem finalize_keeps (h : Bystander P) (summary : ExecutionSummary) :
    Call.Triple P (finalize env summary) (fun _ ↦ P) fun _ ↦ P := by
  apply triple_finalize
  · intro w hw
    split
    · exact h.summary w _ hw
    · exact hw
  · exact fun _ _ _ hw ↦ hw

theorem abort_keeps (h : Bystander P) (summary : ExecutionSummary) (reason : String) :
    Call.Triple P (abort float env summary reason) (fun _ ↦ P) fun _ ↦ P :=
  (markCurrentJob_keeps h _ _).bind fun _ ↦ finalize_keeps h _

/-- The campaign in the local file is the one that the run has got. -/
def Obtains (float : List Char → Json) (cloud : Cloud) (P : World → Prop) (data : Json) (w : World) :
    Prop :=
  P w ∧ w.localCampaign = some (data.dump (.indented 4) 0) ∧
    ∃ url text, cloud.fetch url = .ok text ∧ readJson float text = .ok data

theorem downloadCampaignFromUrl_obtains (h : Bystander P) (cloud : Cloud) (url : Json) :
    Call.Triple P (downloadCampaignFromUrl float cloud url) (Obtains float cloud P) fun _ ↦ P := by
  cases url with
  | str url =>
      refine Call.Triple.ofExcept_bind (fun data hdata ↦ ?_) fun _ _ _ hw ↦ hw
      obtain ⟨text, htext, hread⟩ := bind_eq_ok.mp hdata
      exact Call.Triple.modify_bind (Call.Triple.pure fun _ hw ↦ hw) fun w hw ↦
        ⟨h.localCampaign w _ hw, rfl, url, text, htext, hread⟩
  | _ => exact Call.Triple.raise fun _ hw ↦ hw

theorem acceptJob_obtains (h : Bystander P) (cloud : Cloud) (payload jobId campaignId : Json) :
    Call.Triple P (acceptJob float cloud payload jobId campaignId) (Obtains float cloud P)
      fun _ ↦ P := by
  refine (recordJob_keeps h cloud _ _ _).bind fun _ ↦ ?_
  refine Call.Triple.modify_bind (show Call.Triple P _ _ _ from ?_)
    fun w hw ↦ h.currentJob w payload hw
  refine Call.Triple.ofExcept_bind (fun url _ ↦ ?_) fun _ _ _ hw ↦ hw
  refine (recordJob_keeps h cloud _ _ _).bind fun _ ↦ ?_
  exact downloadCampaignFromUrl_obtains h cloud url

theorem notifiedCampaign_obtains (h : Bystander P) :
    Call.Triple P (notifiedCampaign float env) (Obtains float env.cloud P) fun _ ↦ P := by
  have hcall : ∀ {α β : Type} {x : Except PyError α} {f : α → Call Mqtt.JobError World β}
      {Q : β → World → Prop}, (∀ a, Call.Triple P (f a) Q fun _ ↦ P) →
      Call.Triple P (Call.mapError .python (Call.ofExcept x) >>= f) Q fun _ ↦ P := by
    intro α β x f Q hf
    refine Call.Triple.bind (Call.Triple.mapError ?_) hf
    exact Call.Triple.ofExcept (fun _ _ _ hw ↦ hw) fun _ _ _ hw ↦ hw
  refine hcall fun _ ↦ hcall fun payload ↦ hcall fun jobId ↦ hcall fun campaignId ↦ ?_
  refine Call.Triple.reads_bind fun file ↦ Call.Triple.strengthen ?_ fun w hw ↦ hw.2
  refine Call.Triple.ofExcept_bind (fun _ _ ↦ ?_) fun _ _ _ hw ↦ hw
  exact Call.Triple.mapError (acceptJob_obtains h _ _ _ _)

/-- A run gets its campaign without touching anything else. -/
theorem obtainCampaign_obtains (h : Bystander P) :
    Call.Triple P (obtainCampaign float env)
      (fun campaign w ↦ P w ∧ ∀ data ∈ campaign, Obtains float env.cloud P data w) fun _ ↦ P := by
  have hdownload : Call.Triple P (some <$> downloadCampaign float env.cloud)
      (fun campaign w ↦ P w ∧ ∀ data ∈ campaign, Obtains float env.cloud P data w) fun _ ↦ P :=
    (downloadCampaignFromUrl_obtains h env.cloud _).bind fun data ↦ Call.Triple.pure fun w hw ↦
      ⟨hw.1, fun other hother ↦ Option.some.inj hother ▸ hw⟩
  rw [obtainCampaign]
  split
  · refine Call.Triple.bind (Call.Triple.attempt (Q := fun answer w ↦ P w ∧ ∀ data,
      answer = .ok data → Obtains float env.cloud P data w) ?_) fun answer ↦ ?_
    · refine notifiedCampaign_obtains h |>.conseq (fun _ hw ↦ hw) (fun data w hw ↦ ⟨hw.1, ?_⟩)
        fun e w hw ↦ ⟨hw, fun data hdata ↦ by cases hdata⟩
      exact fun other hother ↦ Except.ok.inj hother ▸ hw
    · cases answer with
      | ok data => exact Call.Triple.pure fun w hw ↦
          ⟨hw.1, fun other hother ↦ Option.some.inj hother ▸ hw.2 data rfl⟩
      | error e =>
          cases e with
          | duplicate message => exact Call.Triple.pure fun w hw ↦
              ⟨hw.1, fun _ hnone ↦ by cases hnone⟩
          | python e => exact hdownload.strengthen fun w hw ↦ hw.1
  · exact hdownload

theorem readJson_dump (hfloat : ∀ text, Json.Printable float (float text)) {text : List Char}
    {data : Json} (h : readJson float text = .ok data) :
    readJson float (data.dump (.indented 4) 0) = .ok data := by
  rw [readJson] at h
  split at h
  · rename_i found hfound
    obtain rfl := Except.ok.inj h
    have hread := @Json.loads_dump float found (.of_loads hfloat hfound) (.indented 4) []
      (List.forall_mem_nil _)
    rw [List.append_nil] at hread
    rw [readJson, hread]
  · cases h
  · cases h

end Bookkeeping

/-! ## Whole runs -/

section Runs

variable {float : List Char → Json} {fromisoformat : String → Except PyError DateTime}
  {env : Surroundings} {transport : String} {data : Json} {P P' : World → Prop} {g : Passage}

theorem Passage.Checked.mono (h : g.Checked float fromisoformat env transport data P)
    (hP : ∀ w, P w → P' w) : g.Checked float fromisoformat env transport data P' :=
  { h with origin := h.origin.imp fun w hw ↦ ⟨hP w hw.1, hw.2⟩ }

/-- The campaign of a run is the one that the cloud has sent. -/
theorem Passage.Checked.obtained (hfloat : ∀ text, Json.Printable float (float text))
    (h : g.Checked float fromisoformat env transport data (Obtains float env.cloud P data)) :
    (∃ url text, env.cloud.fetch url = .ok text ∧ readJson float text = .ok data) ∧
      (CampaignManager.loadCampaign data).map (fun campaign ↦ { campaign with transport }) =
        .ok g.campaign := by
  obtain ⟨w, ⟨-, htext, url, text, hfetch, hread⟩, horigin⟩ := h.origin
  have hcampaign := h.campaign
  rw [Option.some.inj (horigin.symm.trans htext), readJson_dump hfloat hread] at hcampaign
  exact ⟨⟨url, text, hfetch, hread⟩, hcampaign⟩

/-- A run fails at once, or raises, or comes to the update of the vehicle. -/
theorem main_rule {Q : ℕ → World → Prop} {E : PyError → World → Prop} (hP : Bystander P)
    (hfail : ∀ summary, summary.status = "FAILED" → Call.Triple P (finalize env summary) Q E)
    (hraise : ∀ e w, P w → E e w)
    (hupdate : ∀ summary transport data, env.consistent = true →
      selectTransport env.transport env.transportInput = some transport →
        Call.Triple (Obtains float env.cloud P data)
          (updateVehicle float fromisoformat env summary transport data) Q E) :
    Call.Triple P (main float fromisoformat env) Q E := by
  refine Call.Triple.modify_bind (show Call.Triple P _ _ _ from ?_) fun w hw ↦ hP.currentJob w _ hw
  split
  · exact hfail _ rfl
  · rename_i hconsistent
    cases hselected : selectTransport env.transport env.transportInput with
    | none => exact hfail _ rfl
    | some transport =>
        refine Call.Triple.bind ((obtainCampaign_obtains hP).conseq (fun _ hw ↦ hw)
          (fun _ _ hw ↦ hw) hraise) fun campaign ↦ ?_
        cases campaign with
        | none => exact (hfail _ rfl).strengthen fun _ hw ↦ hw.1
        | some data =>
            exact (hupdate _ transport data (not_not.mp hconsistent) hselected).strengthen
              fun _ hw ↦ hw.2 data rfl

end Runs

end VehicleOta.Tcu
