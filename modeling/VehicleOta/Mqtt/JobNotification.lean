import VehicleOta.Common.JsonReads
import VehicleOta.Mqtt.MqttSecurity
import VehicleOta.Zones.ZoneService

/-!
# The notification of a job

`publish_campaign_available` of `ota_server/mqtt_publisher.py` and `wait_for_campaign` of
`tcu/mqtt_client.py`.  Between the two, the broker may drop, repeat and reorder messages, and others
may publish on the topic.  The thread of the MQTT client handles the messages while the caller polls
the holder, so a run is an interleaving of the two.  Whether the thread of `paho-mqtt` goes on behind
an exception in the handler is a parameter.
-/

namespace VehicleOta.Mqtt

open MqttSecurity

/-! ## The publisher -/

/-- The texts that the publisher makes of the time and of its environment. -/
structure Issue where
  vehicleId : String
  baseUrl : String
  /-- `OTA_JOB_ID` -/
  jobId : Option String := none
  /-- `now.strftime("%Y%m%dT%H%M%SZ")` -/
  stamp : String
  createdAt : String
  expiresAt : String
  issuedAt : ℤ

/-- The job id of the environment, unless it is missing or empty. -/
def jobIdOf (campaignId : Json) (issue : Issue) : String :=
  let given := issue.jobId.getD ""
  if given ≠ "" then given
  else "JOB_" ++ formatValue campaignId ++ "_" ++ issue.vehicleId ++ "_" ++ issue.stamp

/-- The payload in front of its signature. -/
def jobPayload (campaign : Json) (issue : Issue) : Except PyError (List (String × Json)) := do
  let campaignId ← campaign.getItem "campaign_id"
  let priority ← campaign.getD "priority" (.str "NORMAL")
  let releaseVersion ← campaign.getItem "release_version"
  let vehicleModel ← campaign.getItem "vehicle_model"
  let url := Json.str (issue.baseUrl ++ "/campaign/latest")
  return [("type", .str "ota_job"), ("job_id", .str (jobIdOf campaignId issue)),
    ("campaign_id", campaignId), ("vehicle_id", .str issue.vehicleId),
    ("operation", .str "software_update"), ("priority", priority),
    ("created_at", .str issue.createdAt), ("expires_at", .str issue.expiresAt),
    ("release_version", releaseVersion), ("vehicle_model", vehicleModel), ("download_url", url),
    ("document", .dict [("campaign_url", url), ("release_version", releaseVersion),
      ("metadata_url", url)]),
    ("issued_at", .int issue.issuedAt)]

/-- The job that `publish_campaign_available` publishes and returns. -/
def publishedJob (signingKey : String) (campaign : Json) (issue : Issue) : Except PyError Json := do
  attachSignature signingKey (← jobPayload campaign issue)

/-- `json.dumps(payload)` as it is sent. -/
def wireText (payload : Json) : Bytes := encodeUtf8 (payload.dump {} 0)

/-! ## The client -/

section Client

-- `float(text)`, `MQTT_JOB_SIGNING_KEY`, and whether `paho-mqtt` goes on behind an exception
variable (float : List Char → Json) (signingKey : String) (resumes : Bool)

/-- `on_message` on the payload in the holder; a `UnicodeDecodeError` stands without its text. -/
def onMessage (holder : Option Json) (payload : Bytes) : Except PyError (Option Json) :=
  if payload = [] then .ok holder
  else
    match decodeUtf8? payload with
    | none => .error (.valueError "UnicodeDecodeError")
    | some text =>
        match Json.loads float text with
        | .error .decodeError => .ok none
        | .error (.valueError e) => .error e
        | .ok message => do
            if ¬ (← message.getD "type" .null).eq (.str "ota_job") then return holder
            else if ¬ (← verifySignature signingKey message) then return none
            else return some message

/-- The thread of the client handles a message, or the caller looks into the holder. -/
inductive Event where
  | message (payload : Bytes)
  | poll

structure Listener where
  holder : Option Json := none
  alive : Bool := true

def Listener.handle (s : Listener) (payload : Bytes) : Listener :=
  if ¬ s.alive then s
  else
    match onMessage float signingKey s.holder payload with
    | .ok holder => { s with holder }
    | .error _ => { s with alive := resumes }

/-- The loop of `wait_for_campaign` up to its deadline. -/
def waitForCampaign (s : Listener) : List Event → Except PyError Json
  | [] => .error (.timeoutError "Timed out waiting for MQTT campaign notification")
  | .message payload :: events =>
      waitForCampaign (s.handle float signingKey resumes payload) events
  | .poll :: events =>
      match s.holder with
      | some payload => .ok payload
      | none => waitForCampaign s events

end Client

/-! ## One message -/

section Messages

variable {float : List Char → Json} {signingKey : String} {holder : Option Json} {m : Bytes}
  {job : Json}

/-- A job with a valid signature. -/
structure Accepted (float : List Char → Json) (signingKey : String) (m : Bytes) (job : Json) :
    Prop where
  text : ∃ text, decodeUtf8? m = some text ∧ Json.loads float text = .ok job
  type : job.getD "type" .null = .ok (.str "ota_job")
  signed : verifySignature signingKey job = .ok true

/-- The message neither raises an exception nor is a job with a valid signature. -/
def Quiet (float : List Char → Json) (signingKey : String) (m : Bytes) : Prop :=
  ∀ holder, onMessage float signingKey holder m = .ok holder ∨
    onMessage float signingKey holder m = .ok none

/-- The message leaves the holder as it is: it is empty, or an object of another type.  A text that
is no JSON empties the holder. -/
def Ignored (float : List Char → Json) (signingKey : String) (m : Bytes) : Prop :=
  ∀ holder, onMessage float signingKey holder m = .ok holder

/-- The handler raises an exception. -/
def Raises (float : List Char → Json) (signingKey : String) (m : Bytes) : Prop :=
  ∀ holder, ∃ e, onMessage float signingKey holder m = .error e

/-- The four kinds of messages. -/
theorem message_cases (float : List Char → Json) (signingKey : String) (m : Bytes) :
    Ignored float signingKey m ∨ (∀ holder, onMessage float signingKey holder m = .ok none) ∨
      Raises float signingKey m ∨ ∃ job, Accepted float signingKey m job := by
  by_cases hempty : m = []
  · exact Or.inl fun holder ↦ by rw [onMessage, if_pos hempty]
  cases htext : decodeUtf8? m with
  | none =>
      exact Or.inr (Or.inr (Or.inl fun holder ↦ ⟨_, by rw [onMessage, if_neg hempty, htext]⟩))
  | some text =>
      cases hread : Json.loads float text with
      | error e =>
          cases e with
          | decodeError =>
              exact Or.inr (Or.inl fun holder ↦ by
                rw [onMessage, if_neg hempty, htext]
                dsimp only
                rw [hread])
          | valueError e =>
              exact Or.inr (Or.inr (Or.inl fun holder ↦ ⟨e, by
                rw [onMessage, if_neg hempty, htext]
                dsimp only
                rw [hread]⟩))
      | ok message =>
          have hmessage : ∀ holder, onMessage float signingKey holder m =
              (do
                if ¬ (← message.getD "type" .null).eq (.str "ota_job") then return holder
                else if ¬ (← verifySignature signingKey message) then return none
                else return some message) := by
            intro holder
            rw [onMessage, if_neg hempty, htext]
            dsimp only
            rw [hread]
          cases htype : message.getD "type" .null with
          | error e =>
              exact Or.inr (Or.inr (Or.inl fun holder ↦ ⟨e, by
                rw [hmessage, htype]
                rfl⟩))
          | ok type =>
              by_cases hjob : type.eq (.str "ota_job")
              · obtain rfl := Tcu.UptaneVerifier.eq_str.mp hjob
                cases hverified : verifySignature signingKey message with
                | error e =>
                    exact Or.inr (Or.inr (Or.inl fun holder ↦ ⟨e, by
                      simp [hmessage, htype, hverified, hjob, bind, Except.bind]⟩))
                | ok verified =>
                    cases verified with
                    | false =>
                        exact Or.inr (Or.inl fun holder ↦ by
                          simp [hmessage, htype, hverified, hjob, bind, Except.bind, pure,
                            Except.pure])
                    | true =>
                        exact Or.inr (Or.inr (Or.inr
                          ⟨message, ⟨text, htext, hread⟩, htype, hverified⟩))
              · exact Or.inl fun holder ↦ by
                  simp [hmessage, htype, hjob, bind, Except.bind, pure, Except.pure]

theorem quiet_of_not (hraises : ¬ Raises float signingKey m)
    (haccepted : ∀ job, ¬ Accepted float signingKey m job) : Quiet float signingKey m := by
  rcases message_cases float signingKey m with h | h | h | ⟨job, h⟩
  · exact fun holder ↦ Or.inl (h holder)
  · exact fun holder ↦ Or.inr (h holder)
  · exact absurd h hraises
  · exact absurd h (haccepted job)

theorem accepted_of_onMessage (h : onMessage float signingKey holder m = .ok (some job)) :
    holder = some job ∨ Accepted float signingKey m job := by
  rw [onMessage] at h
  split at h
  · exact Or.inl (Except.ok.inj h)
  · cases htext : decodeUtf8? m with
    | none =>
        rw [htext] at h
        cases h
    | some text =>
        rw [htext] at h
        dsimp only at h
        cases hread : Json.loads float text with
        | error e =>
            rw [hread] at h
            cases e <;> cases h
        | ok found =>
            rw [hread] at h
            obtain ⟨type, htype, h⟩ := bind_eq_ok.mp h
            split at h
            · exact Or.inl (Except.ok.inj h)
            · rename_i hjob
              obtain rfl := Tcu.UptaneVerifier.eq_str.mp (not_not.mp hjob)
              obtain ⟨verified, hverified, h⟩ := bind_eq_ok.mp h
              cases verified with
              | false => cases h
              | true =>
                  obtain rfl := Option.some.inj (Except.ok.inj h)
                  exact Or.inr ⟨⟨text, htext, hread⟩, htype, hverified⟩

theorem onMessage_of_accepted (h : Accepted float signingKey m job) (holder : Option Json) :
    onMessage float signingKey holder m = .ok (some job) := by
  obtain ⟨text, htext, hread⟩ := h.text
  have hne : m ≠ [] := by
    rintro rfl
    have hempty : decodeUtf8? [] = some [] := by decide +kernel
    obtain rfl := Option.some.inj (htext.symm.trans hempty)
    cases hread
  rw [onMessage, if_neg hne, htext]
  dsimp only
  rw [hread]
  simp [h.type, h.signed, Json.eq, bind, Except.bind, pure, Except.pure]

end Messages

/-! ## Runs -/

section Runs

variable {float : List Char → Json} {signingKey : String} {resumes : Bool} {s : Listener}
  {events later : List Event} {job : Json}

/-- Induction on the run: what is returned was in the holder or comes from a message. -/
theorem accepted_of_waitForCampaign (h : waitForCampaign float signingKey resumes s events = .ok job) :
    s.holder = some job ∨ ∃ m, .message m ∈ events ∧ Accepted float signingKey m job := by
  induction events generalizing s with
  | nil => cases h
  | cons event events ih =>
      cases event with
      | message m =>
          rw [waitForCampaign] at h
          rcases ih h with hholder | ⟨m', hm', haccepted⟩
          · rw [Listener.handle] at hholder
            split at hholder
            · exact Or.inl hholder
            · split at hholder
              · rename_i holder hhandled
                dsimp only at hholder
                rw [hholder] at hhandled
                rcases accepted_of_onMessage hhandled with h | haccepted
                · exact Or.inl h
                · exact Or.inr ⟨m, List.mem_cons_self, haccepted⟩
              · exact Or.inl hholder
          · exact Or.inr ⟨m', List.mem_cons_of_mem _ hm', haccepted⟩
      | poll =>
          rw [waitForCampaign] at h
          cases hholder : s.holder with
          | some payload =>
              rw [hholder] at h
              exact Or.inl (congrArg some (Except.ok.inj h))
          | none =>
              rw [hholder] at h
              rcases ih h with hsome | ⟨m, hm, haccepted⟩
              · cases hholder.symm.trans hsome
              · exact Or.inr ⟨m, List.mem_cons_of_mem _ hm, haccepted⟩

/-- Messages without a job leave an empty holder empty. -/
theorem waitForCampaign_quiet (hholder : s.holder = none) (halive : s.alive)
    (h : ∀ m, .message m ∈ events → Quiet float signingKey m) :
    waitForCampaign float signingKey resumes s (events ++ later) =
      waitForCampaign float signingKey resumes s later := by
  obtain ⟨holder, alive⟩ := s
  obtain rfl : holder = none := hholder
  obtain rfl : alive = true := halive
  induction events with
  | nil => rfl
  | cons event events ih =>
      have hrest := ih fun m hm ↦ h m (List.mem_cons_of_mem _ hm)
      cases event with
      | message m =>
          have hm : onMessage float signingKey none m = .ok none :=
            (h m List.mem_cons_self none).elim id id
          rw [List.cons_append, waitForCampaign, Listener.handle, if_neg (not_not.mpr rfl), hm]
          exact hrest
      | poll =>
          rw [List.cons_append, waitForCampaign]
          exact hrest

/-- A job stays in the holder until the caller looks. -/
theorem waitForCampaign_held (halive : s.alive) (hholder : s.holder = some job)
    (h : ∀ m, .message m ∈ events →
      Ignored float signingKey m ∨ Accepted float signingKey m job) :
    waitForCampaign float signingKey resumes s (events ++ .poll :: later) = .ok job := by
  obtain ⟨holder, alive⟩ := s
  obtain rfl : holder = some job := hholder
  obtain rfl : alive = true := halive
  induction events with
  | nil => rfl
  | cons event events ih =>
      have hrest := ih fun m hm ↦ h m (List.mem_cons_of_mem _ hm)
      cases event with
      | message m =>
          have hm : onMessage float signingKey (some job) m = .ok (some job) := by
            rcases h m List.mem_cons_self with hignored | haccepted
            · exact hignored _
            · exact onMessage_of_accepted haccepted _
          rw [List.cons_append, waitForCampaign, Listener.handle, if_neg (not_not.mpr rfl), hm]
          exact hrest
      | poll => rfl

/-- Nothing is received behind the end of the thread. -/
theorem waitForCampaign_ended (halive : s.alive = false) (hholder : s.holder = none) :
    waitForCampaign float signingKey resumes s events =
      .error (.timeoutError "Timed out waiting for MQTT campaign notification") := by
  obtain ⟨holder, alive⟩ := s
  obtain rfl : holder = none := hholder
  obtain rfl : alive = false := halive
  induction events with
  | nil => rfl
  | cons event events ih =>
      cases event with
      | message m =>
          rw [waitForCampaign, Listener.handle, if_pos (by decide)]
          exact ih
      | poll => exact ih

end Runs

/-! ## The job on the wire -/

section Wire

variable {float : List Char → Json} {signingKey : String} {key : Bytes} {campaign job : Json}
  {issue : Issue}

theorem printable_of_lookup {entries : List (String × Json)} {name : String} {x : Json}
    (h : Json.Printable float (.dict entries)) (hlookup : Json.lookup entries name = some x) :
    Json.Printable float x := by
  obtain ⟨e, he, rfl⟩ := Option.map_eq_some_iff.mp hlookup
  cases h with
  | dict _ hvalues => exact hvalues e (List.mem_of_find?_eq_some he)

theorem printable_of_getItem {x y : Json} {name : String} (h : Json.Printable float x)
    (hitem : x.getItem name = .ok y) : Json.Printable float y := by
  cases x with
  | dict entries =>
      rw [Json.getItem] at hitem
      cases hlookup : Json.lookup entries name with
      | none =>
          rw [hlookup] at hitem
          cases hitem
      | some found =>
          rw [hlookup] at hitem
          obtain rfl := Except.ok.inj hitem
          exact printable_of_lookup h hlookup
  | _ => cases hitem

theorem printable_of_getD {x y default : Json} {name : String} (h : Json.Printable float x)
    (hdefault : Json.Printable float default) (hitem : x.getD name default = .ok y) :
    Json.Printable float y := by
  obtain ⟨entries, rfl⟩ := dict_of_getD hitem
  obtain rfl := Except.ok.inj hitem
  cases hlookup : Json.lookup entries name with
  | none => exact hdefault
  | some found => exact printable_of_lookup h hlookup

/-- What the server can issue: a campaign out of a JSON file, and a number for the time. -/
structure Issuable (float : List Char → Json) (campaign : Json) (issue : Issue) : Prop where
  campaign : Json.Printable float campaign
  issuedAt : (digitsOf issue.issuedAt.natAbs).length ≤ 4300

theorem Issuable.printable_jobPayload (h : Issuable float campaign issue)
    {payload : List (String × Json)} (hpayload : jobPayload campaign issue = .ok payload) :
    Json.Printable float (.dict payload) ∧ "signature" ∉ payload.map Prod.fst ∧
      Json.lookup payload "type" = some (.str "ota_job") := by
  simp only [jobPayload, bind_eq_ok] at hpayload
  obtain ⟨campaignId, hid, priority, hpriority, version, hversion, model, hmodel, hok⟩ := hpayload
  obtain rfl := Except.ok.inj hok
  have hcampaign := h.campaign
  refine ⟨?_, by simp, rfl⟩
  apply Json.Printable.dict
  · exact (by decide : ["type", "job_id", "campaign_id", "vehicle_id", "operation", "priority",
      "created_at", "expires_at", "release_version", "vehicle_model", "download_url", "document",
      "issued_at"].Nodup)
  · have hversion' := printable_of_getItem hcampaign hversion
    simp only [List.forall_mem_cons, List.not_mem_nil, false_implies, implies_true, and_true]
    refine ⟨.str _, .str _, printable_of_getItem hcampaign hid, .str _, .str _,
      printable_of_getD hcampaign (.str _) hpriority, .str _, .str _, hversion',
      printable_of_getItem hcampaign hmodel, .str _, ?_, .int h.issuedAt⟩
    apply Json.Printable.dict
    · exact (by decide : ["campaign_url", "release_version", "metadata_url"].Nodup)
    · simp only [List.forall_mem_cons, List.not_mem_nil, false_implies, implies_true, and_true]
      exact ⟨.str _, hversion', .str _⟩

/-- The published job is accepted as it was sent. -/
theorem Issuable.accepted (h : Issuable float campaign issue)
    (hkey : VehicleOta.fromHex signingKey.toList = .ok key)
    (hjob : publishedJob signingKey campaign issue = .ok job) :
    Json.Printable float job ∧ Accepted float signingKey (wireText job) job := by
  obtain ⟨payload, hpayload, hattach⟩ := bind_eq_ok.mp hjob
  obtain ⟨hprintable, hfresh, htype⟩ := h.printable_jobPayload hpayload
  obtain ⟨entries, value, hdict, hsigned, -⟩ := signed_of_attach hkey hattach
  have hentries : job = .dict (payload ++ [("signature", .dict [("algorithm",
      .str "hmac-sha256"), ("value", .str (Hash.hexDigest (Hash.hmacSha256 key
        (Json.dict (unsignedEntries payload)).canonicalBytes)))])]) := by
    rw [attachSignature, signPayload_dict hkey] at hattach
    obtain rfl := Except.ok.inj hattach
    rw [Dict.setEntries, if_neg hfresh]
  have hprinted : Json.Printable float job := by
    cases hprintable with
    | dict hkeys hvalues =>
        rw [hentries]
        apply Json.Printable.dict
        · rw [List.map_append, List.nodup_append_comm]
          exact List.nodup_cons.mpr ⟨hfresh, hkeys⟩
        · refine List.forall_mem_append.mpr ⟨hvalues, List.forall_mem_singleton.mpr ?_⟩
          apply Json.Printable.dict
          · exact (by decide : ["algorithm", "value"].Nodup)
          · simp only [List.forall_mem_cons, List.not_mem_nil, false_implies, implies_true, and_true]
            exact ⟨.str _, .str _⟩
  refine ⟨hprinted, ⟨⟨job.dump {} 0, decodeUtf8?_encodeUtf8 _, ?_⟩, ?_, ?_⟩⟩
  · have hread := Json.loads_dump hprinted {} fun _ hc ↦ List.not_mem_nil.elim hc
    rwa [List.append_nil] at hread
  · have hlookup : Json.lookup entries "type" = some (.str "ota_job") := by
      obtain rfl := Json.dict.inj (hdict.symm.trans hentries)
      rw [Json.lookup, List.find?_append, Option.map_or]
      rw [Json.lookup] at htype
      rw [htype]
      rfl
    rw [hdict, Json.getD, hlookup]
    rfl
  · exact (verifySignature_iff hkey).mpr ⟨entries, value, hdict, hsigned⟩

end Wire

/-! ## What is received -/

/-- Whatever is published on the topic, and however the deliveries and the polls interleave, what
`wait_for_campaign` returns was delivered in a message, and carries the HMAC of its own content
under the key.  Where the server has published a job with the same signature, it has the content
of that job, unless the canonical texts of the two collide. -/
theorem waited_job_is_authentic (float : List Char → Json) (signingKey : String) (resumes : Bool)
    (key : Bytes) (events : List Event) (job : Json)
    (hkey : VehicleOta.fromHex signingKey.toList = .ok key)
    (hfloat : ∀ text, Json.Printable float (float text))
    (h : waitForCampaign float signingKey resumes {} events = .ok job) :
    (∃ m, .message m ∈ events ∧ Accepted float signingKey m job) ∧
    ∃ entries value, job = .dict entries ∧ Signed key entries value ∧
      ∀ campaign issue published, Issuable float campaign issue →
        publishedJob signingKey campaign issue = .ok (.dict published) →
        Signed key published value →
        (Hash.hmacSha256 key (Json.dict (unsignedEntries entries)).canonicalBytes =
            Hash.hmacSha256 key (Json.dict (unsignedEntries published)).canonicalBytes →
          (Json.dict (unsignedEntries entries)).canonicalBytes =
            (Json.dict (unsignedEntries published)).canonicalBytes) →
        (Json.dict (unsignedEntries entries)).sorted =
          (Json.dict (unsignedEntries published)).sorted := by
  rcases accepted_of_waitForCampaign h with hholder | ⟨m, hm, haccepted⟩
  · cases hholder
  · obtain ⟨text, htext, hread⟩ := haccepted.text
    obtain ⟨entries, value, rfl, hsigned⟩ := (verifySignature_iff hkey).mp haccepted.signed
    refine ⟨⟨m, hm, haccepted⟩, entries, value, rfl, hsigned, ?_⟩
    intro campaign issue published hissuable hpublished hsame hcollision
    obtain ⟨hprintable, -⟩ := hissuable.accepted hkey hpublished
    exact hsigned.content_eq hsame (Json.Printable.of_loads hfloat hread) hprintable hcollision

/-- The job that the server publishes is returned as it was published, through its JSON text: it has
to be delivered behind messages that neither raise an exception nor carry another job, and until the
caller looks, it may be repeated between messages that leave the holder as it is.  Behind a message
that raises, the wait goes on as if that message had not come, or, where the exception ends the
thread of the client, nothing is received, whatever is delivered later. -/
theorem published_job_is_received (float : List Char → Json) (signingKey : String) (resumes : Bool)
    (key : Bytes) (campaign : Json) (issue : Issue) (job : Json) (before between : List Event)
    (hkey : VehicleOta.fromHex signingKey.toList = .ok key)
    (hissuable : Issuable float campaign issue)
    (hjob : publishedJob signingKey campaign issue = .ok job)
    (hbefore : ∀ m, .message m ∈ before →
      ¬ Raises float signingKey m ∧ ∀ other, ¬ Accepted float signingKey m other)
    (hbetween : ∀ m, .message m ∈ between → Ignored float signingKey m ∨ m = wireText job) :
    (∀ after, waitForCampaign float signingKey resumes {}
      (before ++ .message (wireText job) :: (between ++ .poll :: after)) = .ok job) ∧
    ∀ m later, Raises float signingKey m →
      waitForCampaign float signingKey resumes {} (before ++ .message m :: later) =
        if resumes then waitForCampaign float signingKey resumes {} (before ++ later)
        else .error (.timeoutError "Timed out waiting for MQTT campaign notification") := by
  obtain ⟨-, haccepted⟩ := hissuable.accepted hkey hjob
  have hquiet : ∀ m, .message m ∈ before → Quiet float signingKey m :=
    fun m hm ↦ quiet_of_not (hbefore m hm).1 (hbefore m hm).2
  refine ⟨fun after ↦ ?_, fun m later hraises ↦ ?_⟩
  · rw [waitForCampaign_quiet rfl rfl hquiet, waitForCampaign, Listener.handle,
      if_neg (not_not.mpr rfl), onMessage_of_accepted haccepted]
    apply waitForCampaign_held rfl rfl
    intro m hm
    rcases hbetween m hm with hignored | rfl
    · exact Or.inl hignored
    · exact Or.inr haccepted
  · obtain ⟨e, he⟩ := hraises none
    rw [waitForCampaign_quiet rfl rfl hquiet, waitForCampaign_quiet rfl rfl hquiet, waitForCampaign,
      Listener.handle, if_neg (not_not.mpr rfl), he]
    cases resumes with
    | true => rfl
    | false => exact waitForCampaign_ended rfl rfl

/-! ### The demo campaign -/

def demoKey : Bytes :=
  [0x00, 0x11, 0x22, 0x33, 0x44, 0x55, 0x66, 0x77, 0x88, 0x99, 0xAA, 0xBB, 0xCC, 0xDD, 0xEE, 0xFF]

def demoSigningKey : String := Hash.hexDigest demoKey

def demoCampaign : Json :=
  .dict [("campaign_id", .str "OTA_2026_001"), ("release_version", .str "2.0.0"),
    ("vehicle_model", .str "DEMO"), ("priority", .str "HIGH")]

def demoIssue : Issue where
  vehicleId := "demo-vin"
  baseUrl := "https://127.0.0.1:8080"
  stamp := "20260716T000000Z"
  createdAt := "2026-07-16T00:00:00+00:00"
  expiresAt := "2026-07-17T00:00:00+00:00"
  issuedAt := 1784160000

def demoJob : Json := (publishedJob demoSigningKey demoCampaign demoIssue).toOption.getD .null

theorem fromHex_demo : VehicleOta.fromHex demoSigningKey.toList = .ok demoKey :=
  VehicleOta.fromHex_hexDigest demoKey

theorem issuable_demo (float : List Char → Json) : Issuable float demoCampaign demoIssue where
  campaign := by
    apply Json.Printable.dict
    · exact (by decide : ["campaign_id", "release_version", "vehicle_model", "priority"].Nodup)
    · simp only [List.forall_mem_cons, List.not_mem_nil, false_implies, implies_true, and_true]
      exact ⟨.str _, .str _, .str _, .str _⟩
  issuedAt := by
    have hshort : (digitsOf (1784160000 : ℤ).natAbs).length ≤ 10 :=
      length_digitsOf_le (by decide) (by decide)
    exact hshort.trans (by decide)

theorem publishedJob_demo : publishedJob demoSigningKey demoCampaign demoIssue = .ok demoJob := by
  obtain ⟨payload, hpayload⟩ : ∃ payload, jobPayload demoCampaign demoIssue = .ok payload :=
    ⟨_, rfl⟩
  obtain ⟨job, hjob⟩ : ∃ job, publishedJob demoSigningKey demoCampaign demoIssue = .ok job := by
    rw [publishedJob, hpayload]
    simp only [bind, Except.bind, attachSignature, signPayload_dict fromHex_demo]
    exact ⟨_, rfl⟩
  rw [demoJob, hjob]
  rfl

theorem published_job_is_received_demo :
    waitForCampaign (fun _ ↦ .nan) demoSigningKey false {} [.poll, .message [], .message
      (wireText demoJob), .message (wireText demoJob), .message [], .poll] = .ok demoJob := by
  have hempty : ∀ m, Event.message m ∈ [Event.poll, .message []] → m = [] := by simp
  have hignored : Ignored (fun _ ↦ .nan) demoSigningKey [] := fun _ ↦ rfl
  obtain ⟨hreceived, -⟩ := published_job_is_received (fun _ ↦ .nan) demoSigningKey false
    demoKey demoCampaign demoIssue demoJob [.poll, .message []] [.message (wireText demoJob), .message []]
    fromHex_demo (issuable_demo _) publishedJob_demo (fun m hm ↦ by
      obtain rfl := hempty m hm
      refine ⟨fun hraises ↦ ?_, fun other haccepted ↦ ?_⟩
      · obtain ⟨e, he⟩ := hraises none
        cases he
      · have hother := onMessage_of_accepted haccepted none
        rw [hignored none] at hother
        cases hother)
    fun m hm ↦ by
      simp only [List.mem_cons, Event.message.injEq, List.not_mem_nil, or_false] at hm
      rcases hm with rfl | rfl
      · exact Or.inr rfl
      · exact Or.inl hignored
  exact hreceived []

theorem waited_job_is_authentic_demo :
    ∃ m, Event.message m ∈ [Event.message (wireText demoJob), .poll] ∧
      Accepted (fun _ ↦ .nan) demoSigningKey m demoJob := by
  have haccepted := ((issuable_demo fun _ ↦ .nan).accepted fromHex_demo publishedJob_demo).2
  have hreceived : waitForCampaign (fun _ ↦ .nan) demoSigningKey false {}
      [.message (wireText demoJob), .poll] = .ok demoJob := by
    rw [waitForCampaign, Listener.handle, if_neg (not_not.mpr rfl),
      onMessage_of_accepted haccepted]
    rfl
  exact (waited_job_is_authentic (fun _ ↦ .nan) demoSigningKey false demoKey _ demoJob fromHex_demo
    (fun _ ↦ .nan) hreceived).1

end VehicleOta.Mqtt
