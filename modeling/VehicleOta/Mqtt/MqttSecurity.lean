import VehicleOta.Common.CanonicalJson
import VehicleOta.Tcu.SignatureThreshold

/-!
# Signatures on MQTT jobs

`common/mqtt_security.py`.  The signature of a job covers its canonical text without the signature.
-/

namespace VehicleOta.MqttSecurity

open Hash Tcu.UptaneVerifier

/-- The entries of `unsigned`. -/
def unsignedEntries (entries : List (String × Json)) : List (String × Json) :=
  entries.filter fun e ↦ e.1 ≠ "signature"

def canonicalPayload (payload : Json) : Except PyError Bytes := do
  return (Json.dict (unsignedEntries (← payload.items))).canonicalBytes

section Key

-- `MQTT_JOB_SIGNING_KEY`
variable (signingKey : String)

def signPayload (payload : Json) : Except PyError String := do
  let key ← fromHex signingKey.toList
  return hexDigest (hmacSha256 key (← canonicalPayload payload))

def attachSignature (payload : List (String × Json)) : Except PyError Json := do
  let value ← signPayload signingKey (.dict payload)
  return .dict (Dict.setEntries payload "signature"
    (.dict [("algorithm", .str "hmac-sha256"), ("value", .str value)]))

def verifySignature (payload : Json) : Except PyError Bool := do
  let signature ← payload.getD "signature" (.dict [])
  if ¬ (← signature.getD "algorithm" .null).eq (.str "hmac-sha256") then return false
  else
    let expected ← signPayload signingKey payload
    compareDigest expected (← signature.getD "value" (.str ""))

end Key

/-! ## What is signed -/

/-- The payload carries the signature of its own content. -/
structure Signed (key : Bytes) (entries : List (String × Json)) (value : String) : Prop where
  signature : ∃ fields, Json.lookup entries "signature" = some (.dict fields) ∧
    Json.lookup fields "algorithm" = some (.str "hmac-sha256") ∧
    Json.lookup fields "value" = some (.str value)
  covers : value = hexDigest (hmacSha256 key (Json.dict (unsignedEntries entries)).canonicalBytes)

variable {signingKey value : String} {key : Bytes} {entries other : List (String × Json)}
  {payload : Json}

theorem unsignedEntries_setEntries (x : Json) :
    unsignedEntries (Dict.setEntries entries "signature" x) = unsignedEntries entries := by
  have hmap : unsignedEntries (entries.map fun e ↦ if e.1 = "signature" then ("signature", x) else e) =
      unsignedEntries entries := by
    induction entries with
    | nil => rfl
    | cons e entries ih =>
        by_cases he : e.1 = "signature"
        · simpa [unsignedEntries, he] using ih
        · simpa [unsignedEntries, he] using ih
  rw [Dict.setEntries]
  split
  · exact hmap
  · simp [unsignedEntries, List.filter_append]

theorem signPayload_dict (hkey : fromHex signingKey.toList = .ok key) :
    signPayload signingKey (.dict entries) =
      .ok (hexDigest (hmacSha256 key (Json.dict (unsignedEntries entries)).canonicalBytes)) := by
  rw [signPayload, hkey]
  rfl

theorem compareDigest_eq_true {expected : String} {x : Json}
    (h : compareDigest expected x = .ok true) : x = .str expected := by
  cases x with
  | str text =>
      rw [compareDigest] at h
      split at h
      · rw [of_decide_eq_true (Except.ok.inj h)]
      · cases h
  | _ => cases h

theorem hexDigest_ne_empty {data : Bytes} (h : data ≠ []) : hexDigest data ≠ "" := by
  obtain ⟨b, data, rfl⟩ := List.exists_cons_of_ne_nil h
  intro heq
  have htext := congrArg String.toList heq
  rw [hexDigest, String.toList_ofList] at htext
  cases htext

theorem hmacSha256_ne_nil (message : Bytes) : hmacSha256 key message ≠ [] := by
  rw [hmacSha256]
  exact List.ne_nil_of_length_pos (by rw [length_sha256]; decide)

theorem lookup_of_getD {fields : List (String × Json)} {name : String} {x default : Json}
    (h : (Json.dict fields).getD name default = .ok x) (hne : x ≠ default) :
    Json.lookup fields name = some x := by
  have hx := Except.ok.inj h
  cases hlookup : Json.lookup fields name with
  | none =>
      rw [hlookup] at hx
      exact absurd hx.symm hne
  | some found =>
      rw [hlookup] at hx
      exact congrArg some hx

theorem dict_of_getD {name : String} {x default : Json} (h : payload.getD name default = .ok x) :
    ∃ fields, payload = .dict fields := by
  cases payload with
  | dict fields => exact ⟨fields, rfl⟩
  | _ => cases h

/-- What is accepted carries the signature of its own content. -/
theorem verifySignature_iff (hkey : fromHex signingKey.toList = .ok key) :
    verifySignature signingKey payload = .ok true ↔
      ∃ entries value, payload = .dict entries ∧ Signed key entries value := by
  constructor
  · intro h
    simp only [verifySignature, bind_eq_ok] at h
    obtain ⟨signature, hsignature, algorithm, halgorithm, h⟩ := h
    obtain ⟨entries, rfl⟩ := dict_of_getD hsignature
    obtain ⟨fields, rfl⟩ := dict_of_getD halgorithm
    split at h
    · cases h
    · rename_i heq
      obtain rfl := Tcu.UptaneVerifier.eq_str.mp (not_not.mp heq)
      obtain ⟨expected, hexpected, hvalue⟩ := bind_eq_ok.mp h
      obtain ⟨sig, hsig, hcompare⟩ := bind_eq_ok.mp hvalue
      obtain rfl := compareDigest_eq_true hcompare
      rw [signPayload_dict hkey] at hexpected
      obtain rfl := Except.ok.inj hexpected
      have halgorithm' := lookup_of_getD halgorithm (by simp)
      have hsignature' : Json.lookup entries "signature" = some (.dict fields) := by
        apply lookup_of_getD hsignature
        intro hempty
        obtain rfl := Json.dict.inj hempty
        cases halgorithm'
      have hne := hexDigest_ne_empty
        (@hmacSha256_ne_nil key (Json.dict (unsignedEntries entries)).canonicalBytes)
      exact ⟨entries, _, rfl, ⟨fields, hsignature', halgorithm',
        lookup_of_getD hsig fun h ↦ hne (Json.str.inj h)⟩, rfl⟩
  · rintro ⟨entries, value, rfl, ⟨fields, hsignature, halgorithm, hvalue⟩, hcovers⟩
    have hexpected := @signPayload_dict signingKey key entries hkey
    have hself := compareDigest_self
      (hmacSha256 key (Json.dict (unsignedEntries entries)).canonicalBytes)
    rw [hcovers] at hvalue
    simp [verifySignature, Json.getD, hsignature, halgorithm, hvalue, Json.eq, hexpected, bind,
      Except.bind, hself]

theorem lookup_setEntries_self (name : String) (x : Json) :
    Json.lookup (Dict.setEntries entries name x) name = some x := by
  rw [Json.lookup_setEntries, if_pos rfl]

/-- The publisher's signature is that of the content it signs. -/
theorem signed_of_attach (hkey : fromHex signingKey.toList = .ok key)
    (h : attachSignature signingKey entries = .ok payload) :
    ∃ es value, payload = .dict es ∧ Signed key es value ∧
      unsignedEntries es = unsignedEntries entries := by
  rw [attachSignature, signPayload_dict hkey] at h
  obtain rfl := (Except.ok.inj h).symm
  refine ⟨_, _, rfl, ⟨⟨_, lookup_setEntries_self _ _, rfl, rfl⟩, ?_⟩, unsignedEntries_setEntries _⟩
  rw [unsignedEntries_setEntries]

theorem hexDigest_injective {data data' : Bytes} (h : hexDigest data = hexDigest data') :
    data = data' := by
  have hread := fromHex_hexDigest data
  rw [h, fromHex_hexDigest] at hread
  exact (Except.ok.inj hread).symm

theorem printable_unsigned {float : List Char → Json} (h : Json.Printable float (.dict entries)) :
    Json.Printable float (.dict (unsignedEntries entries)) := by
  cases h with
  | dict hkeys hvalues =>
      apply Json.Printable.dict
      · exact hkeys.sublist (List.filter_sublist.map Prod.fst)
      · exact fun e he ↦ hvalues e (List.mem_of_mem_filter he)

/-- Two payloads with one signature have the same content, unless their canonical texts collide. -/
theorem Signed.content_eq {float : List Char → Json} (h : Signed key entries value)
    (h' : Signed key other value) (hentries : Json.Printable float (.dict entries))
    (hother : Json.Printable float (.dict other))
    (hcollision : hmacSha256 key (Json.dict (unsignedEntries entries)).canonicalBytes =
        hmacSha256 key (Json.dict (unsignedEntries other)).canonicalBytes →
      (Json.dict (unsignedEntries entries)).canonicalBytes =
        (Json.dict (unsignedEntries other)).canonicalBytes) :
    (Json.dict (unsignedEntries entries)).sorted = (Json.dict (unsignedEntries other)).sorted := by
  apply (printable_unsigned hentries).sorted_eq_of_canonicalBytes (printable_unsigned hother)
  exact hcollision (hexDigest_injective (h.covers.symm.trans h'.covers))

end VehicleOta.MqttSecurity
