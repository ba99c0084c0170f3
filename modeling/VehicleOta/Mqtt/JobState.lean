import VehicleOta.Common.JsonReads
import VehicleOta.Tcu.SignatureThreshold

/-!
# The state file of the MQTT jobs

`MQTTJobState` of `tcu/mqtt_campaign_state.py`, on the text of its file.
-/

namespace VehicleOta.Mqtt

/-- `DuplicateMQTTJob`, or another exception. -/
inductive JobError where
  | duplicate (message : String)
  | python (error : PyError)
  deriving DecidableEq

/-- The text of the file, if there is one. -/
abbrev StateFile := Option (List Char)

/-- The name that `json.dump` gives a key. -/
def keyText : Json → Except PyError String
  | .str s => .ok s
  | .int n => .ok (toString n)
  | .bool b => .ok (if b then "true" else "false")
  | .null => .ok "null"
  | .float _ text => .ok text
  | .infinity negative => .ok (if negative then "-Infinity" else "Infinity")
  | .nan => .ok "NaN"
  | x => .error (.typeError ("unhashable type: '" ++ x.typeName ++ "'"))

namespace MQTTJobState

-- `float(text)`
variable (float : List Char → Json)

/-- `load`; a `JSONDecodeError` stands without its text. -/
def load : StateFile → Except PyError Json
  | none => .ok (.dict [("jobs", .dict [])])
  | some text =>
      match Json.loads float text with
      | .ok state => .ok state
      | .error .decodeError => .error (.valueError "JSONDecodeError")
      | .error (.valueError e) => .error e

/-- `save` -/
def save (state : Json) : StateFile := some (state.dump (.indented 2) 0 ++ ['\n'])

/-- The job of this id in a state. -/
def jobOf (state jobId : Json) : Except PyError Json := do
  (← state.getD "jobs" (.dict [])).getKey jobId

/-- The condition of `ensure_not_completed`. -/
def isCompleted (file : StateFile) (jobId : Json) : Except PyError Bool := do
  let job ← jobOf (← load float file) jobId
  if job.truthy then return (← job.getD "status" .null).eq (.str "COMPLETED")
  else return false

def ensureNotCompleted (file : StateFile) (jobId : Json) : Except JobError Unit :=
  match isCompleted float file jobId with
  | .error e => .error (.python e)
  | .ok completed =>
      if completed then .error (.duplicate ("MQTT job already completed: " ++
        Tcu.UptaneVerifier.format jobId))
      else .ok ()

def jobEntry (jobId campaignId : Json) (status updatedAt : String) : Json :=
  .dict [("job_id", jobId), ("campaign_id", campaignId), ("status", .str status),
    ("updated_at", .str updatedAt)]

/-- `jobs[job_id] = job`, on a dictionary as it has just been read: only a text can be a key that
it already has. -/
def setJob (jobs jobId job : Json) : Except PyError Json := do
  let key ← keyText jobId
  match jobId, jobs with
  | .str _, _ => jobs.setItem key job
  | _, .dict entries => return .dict (entries ++ [(key, job)])
  | _, _ => jobs.setItem key job

/-- `record`, at a time; the file behind it. -/
def record (file : StateFile) (jobId campaignId : Json) (status updatedAt : String) :
    Except PyError StateFile := do
  match ← load float file with
  | .dict entries => do
      let jobs := (Json.lookup entries "jobs").getD (.dict [])
      let jobs ← setJob jobs jobId (jobEntry jobId campaignId status updatedAt)
      return save (.dict (Dict.setEntries entries "jobs" jobs))
  | state => .error (.attributeError
      ("'" ++ state.typeName ++ "' object has no attribute 'setdefault'"))

/-! ## What the file says of a job -/

/-- The file can be read, and the job of this id is completed in it. -/
def Completed (file : StateFile) (id : String) : Prop :=
  ∃ state job, load float file = .ok state ∧ jobOf state (.str id) = .ok job ∧ job.truthy ∧
    job.getD "status" .null = .ok (.str "COMPLETED")

variable {float} {file file' : StateFile} {id key status updatedAt : String}
  {state jobId campaignId : Json}

theorem isCompleted_iff : isCompleted float file (.str id) = .ok true ↔ Completed float file id := by
  constructor
  · intro h
    obtain ⟨state, hload, h⟩ := bind_eq_ok.mp h
    obtain ⟨job, hjob, hcompleted⟩ := bind_eq_ok.mp h
    split at hcompleted
    · rename_i htruthy
      obtain ⟨status, hstatus, hcompleted⟩ := bind_eq_ok.mp hcompleted
      obtain rfl := Tcu.UptaneVerifier.eq_str.mp (Except.ok.inj hcompleted)
      exact ⟨state, job, hload, hjob, htruthy, hstatus⟩
    · cases hcompleted
  · rintro ⟨state, job, hload, hjob, htruthy, hstatus⟩
    simp [isCompleted, hload, hjob, htruthy, hstatus, Json.eq, bind, Except.bind, pure, Except.pure]

theorem ensureNotCompleted_duplicate (h : Completed float file id) :
    ensureNotCompleted float file (.str id) =
      .error (.duplicate ("MQTT job already completed: " ++ id)) := by
  rw [ensureNotCompleted, isCompleted_iff.mpr h]
  rfl

theorem completed_of_duplicate {message : String}
    (h : ensureNotCompleted float file (.str id) = .error (.duplicate message)) :
    Completed float file id := by
  rw [ensureNotCompleted] at h
  apply isCompleted_iff.mp
  split at h
  · cases h
  · rename_i completed hcompleted
    cases completed with
    | false => cases h
    | true => exact hcompleted

theorem not_completed_of_ensure (h : ensureNotCompleted float file (.str id) = .ok ()) :
    ¬ Completed float file id := by
  intro hcompleted
  rw [ensureNotCompleted_duplicate hcompleted] at h
  cases h

theorem load_save (h : Json.Printable float state) : load float (save state) = .ok state := by
  have hread := @Json.loads_dump float state h (.indented 2) ['\n'] (by simp [Json.isBlank])
  rw [save, load, hread]

theorem printable_of_load (hfloat : ∀ text, Json.Printable float (float text))
    (h : load float file = .ok state) : Json.Printable float state := by
  cases file with
  | none =>
      obtain rfl := Except.ok.inj h
      apply Json.Printable.dict
      · exact (by decide : ["jobs"].Nodup)
      · exact List.forall_mem_singleton.mpr (.dict List.nodup_nil (List.forall_mem_nil _))
  | some text =>
      rw [load] at h
      split at h
      · rename_i found hfound
        obtain rfl := Except.ok.inj h
        exact .of_loads hfloat hfound
      · cases h
      · cases h

theorem printable_setEntries {entries : List (String × Json)} {x : Json}
    (h : Json.Printable float (.dict entries)) (name : String) (hx : Json.Printable float x) :
    Json.Printable float (.dict (Dict.setEntries entries name x)) := by
  cases h with
  | dict hkeys hvalues =>
      apply Json.Printable.dict
      · rw [Dict.setEntries_keys]
        split
        · exact hkeys
        · rename_i hfresh
          rw [List.nodup_append_comm]
          exact List.nodup_cons.mpr ⟨hfresh, hkeys⟩
      · intro e he
        rw [Dict.setEntries] at he
        split at he
        · obtain ⟨e', he', rfl⟩ := List.mem_map.mp he
          split
          · exact hx
          · exact hvalues e' he'
        · rcases List.mem_append.mp he with he | he
          · exact hvalues e he
          · obtain rfl := List.mem_singleton.mp he
            exact hx

/-- The file holds a dictionary of jobs. -/
def Readable (float : List Char → Json) (file : StateFile) : Prop :=
  ∃ entries jobs, load float file = .ok (.dict entries) ∧
    (Json.lookup entries "jobs").getD (.dict []) = .dict jobs

theorem readable_of_jobOf {job : Json} (hload : load float file = .ok state)
    (hjob : jobOf state jobId = .ok job) : Readable float file := by
  obtain ⟨jobs, hjobs, hjob⟩ := bind_eq_ok.mp hjob
  cases state with
  | dict entries =>
      obtain rfl := Except.ok.inj hjobs
      cases hdict : (Json.lookup entries "jobs").getD (.dict []) with
      | dict jobs => exact ⟨entries, jobs, hload, hdict⟩
      | _ =>
          rw [hdict] at hjob
          cases hjob
  | _ => cases hjobs

/-- Where the check answers, the file can be read. -/
theorem readable_of_ensure (h : ensureNotCompleted float file jobId = .ok ()) :
    Readable float file := by
  rw [ensureNotCompleted] at h
  cases hcompleted : isCompleted float file jobId with
  | error e =>
      rw [hcompleted] at h
      cases h
  | ok completed =>
      obtain ⟨state, hload, hrest⟩ := bind_eq_ok.mp hcompleted
      obtain ⟨job, hjob, -⟩ := bind_eq_ok.mp hrest
      exact readable_of_jobOf hload hjob

theorem printable_jobs {entries jobs : List (String × Json)}
    (h : Json.Printable float (.dict entries))
    (hjobs : (Json.lookup entries "jobs").getD (.dict []) = .dict jobs) :
    Json.Printable float (.dict jobs) := by
  cases hlookup : Json.lookup entries "jobs" with
  | none =>
      rw [hlookup] at hjobs
      obtain rfl := Json.dict.inj hjobs
      exact .dict List.nodup_nil (List.forall_mem_nil _)
  | some found =>
      rw [hlookup] at hjobs
      obtain rfl : found = .dict jobs := hjobs
      obtain ⟨e, he, heq⟩ := Option.map_eq_some_iff.mp hlookup
      rw [← heq]
      cases h with
      | dict _ hvalues => exact hvalues e (List.mem_of_find?_eq_some he)

/-- The jobs of a file, one by one. -/
theorem completed_iff {entries jobs : List (String × Json)}
    (hload : load float file = .ok (.dict entries))
    (hjobs : (Json.lookup entries "jobs").getD (.dict []) = .dict jobs) :
    Completed float file id ↔ ((Json.lookup jobs id).getD .null).truthy ∧
      ((Json.lookup jobs id).getD .null).getD "status" .null = .ok (.str "COMPLETED") := by
  have hjob : jobOf (.dict entries) (.str id) = .ok ((Json.lookup jobs id).getD .null) := by
    simp [jobOf, Json.getD, hjobs, Json.getKey, Json.hashable, bind, Except.bind]
  constructor
  · rintro ⟨state, job, hload', hjob', htruthy, hstatus⟩
    obtain rfl := Except.ok.inj (hload.symm.trans hload')
    obtain rfl := Except.ok.inj (hjob.symm.trans hjob')
    exact ⟨htruthy, hstatus⟩
  · rintro ⟨htruthy, hstatus⟩
    exact ⟨_, _, hload, hjob, htruthy, hstatus⟩

/-- `record` on a readable file: the job of this id has the status, the others are as before. -/
theorem record_str (hfloat : ∀ text, Json.Printable float (float text))
    (hcampaignId : Json.Printable float campaignId) (hreadable : Readable float file)
    (key status updatedAt : String) :
    ∃ file', record float file (.str key) campaignId status updatedAt = .ok file' ∧
      Readable float file' ∧ ∀ id, Completed float file' id ↔
        if id = key then status = "COMPLETED" else Completed float file id := by
  obtain ⟨entries, jobs, hload, hjobs⟩ := hreadable
  have hstate := printable_of_load hfloat hload
  have hentry : Json.Printable float (jobEntry (.str key) campaignId status updatedAt) := by
    apply Json.Printable.dict
    · exact (by decide : ["job_id", "campaign_id", "status", "updated_at"].Nodup)
    · simp only [List.forall_mem_cons, List.not_mem_nil, false_implies, implies_true, and_true]
      exact ⟨.str _, hcampaignId, .str _, .str _⟩
  have hload' := load_save (printable_setEntries hstate "jobs" (printable_setEntries
    (printable_jobs hstate hjobs) key hentry))
  have hjobs' : (Json.lookup (Dict.setEntries entries "jobs" (.dict (Dict.setEntries jobs key
      (jobEntry (.str key) campaignId status updatedAt)))) "jobs").getD (.dict []) =
        .dict (Dict.setEntries jobs key (jobEntry (.str key) campaignId status updatedAt)) := by
    rw [Json.lookup_setEntries, if_pos rfl]
    rfl
  have hrecord : record float file (.str key) campaignId status updatedAt =
      .ok (save (.dict (Dict.setEntries entries "jobs" (.dict (Dict.setEntries jobs key
        (jobEntry (.str key) campaignId status updatedAt)))))) := by
    simp only [record, hload, hjobs, setJob, keyText, Json.setItem, bind, Except.bind, pure,
      Except.pure]
  refine ⟨_, hrecord, ⟨_, _, hload', hjobs'⟩, fun id ↦ ?_⟩
  rw [completed_iff hload' hjobs', Json.lookup_setEntries]
  split
  · constructor
    · rintro ⟨-, hstatus⟩
      exact Json.str.inj (Except.ok.inj hstatus)
    · rintro rfl
      exact ⟨rfl, rfl⟩
  · exact (completed_iff hload hjobs).symm

end MQTTJobState

end VehicleOta.Mqtt
