import VehicleOta.Scripts.TrustMetadata
import VehicleOta.Tcu.RootOfTrust

/-!
# Renewed role documents

The script and the verifier are two programs.  They meet at what a renewed role document holds:
each field of it that the verifier reads is stated once, as `Renewed`.
-/

namespace VehicleOta.Scripts

open Hash Tcu Tcu.UptaneVerifier

variable {fromisoformat : String → Except PyError DateTime} {roleName filename : String}
  {role value : Json} {entries signed first : List (String × Json)} {further : List Json}

/-! ## Dictionaries -/

theorem getItem_of_lookup {key : String} (h : Json.lookup entries key = some value) :
    (Json.dict entries).getItem key = .ok value := by
  simp only [Json.getItem, h]

theorem getD_of_lookup {key : String} (default : Json) (h : Json.lookup entries key = some value) :
    (Json.dict entries).getD key default = .ok value := by
  simp only [Json.getD, h, Option.getD_some]

theorem mem_keys_of_lookup {key : String} (h : Json.lookup entries key = some value) :
    key ∈ entries.map Prod.fst := by
  obtain ⟨e, he, -⟩ := Option.map_eq_some_iff.mp h
  have hkey : e.1 = key := by simpa using List.find?_some he
  exact List.mem_map.mpr ⟨e, List.mem_of_find?_eq_some he, hkey⟩

theorem contains_of_lookup {key : String} (h : Json.lookup entries key = some value) :
    (Json.dict entries).contains (.str key) = .ok true := by
  obtain ⟨e, he, hkey⟩ := List.mem_map.mp (mem_keys_of_lookup h)
  have hany : (entries.any fun e ↦ Json.eq (.str key) (.str e.1)) = true :=
    List.any_eq_true.mpr ⟨e, he, by simp [Json.eq, hkey]⟩
  simp [Json.contains, Json.hashable, hany]

theorem lookup_set (entries : List (String × Json)) (key : String) (value : Json) :
    Json.lookup (Dict.setEntries entries key value) key = some value := by
  rw [Json.lookup_setEntries, if_pos rfl]

theorem lookup_set_of_ne {key other : String} (hne : other ≠ key) :
    Json.lookup (Dict.setEntries entries key value) other = Json.lookup entries other := by
  rw [Json.lookup_setEntries, if_neg hne]

/-! ## Role documents -/

/-- A role document: a signed dictionary, and signatures of which the first is a dictionary. -/
def RoleParts (role : Json) (signed first : List (String × Json)) (further : List Json) : Prop :=
  ∃ entries, role = .dict entries ∧ Json.lookup entries "signed" = some (.dict signed) ∧
    Json.lookup entries "signatures" = some (.list (.dict first :: further))

namespace RoleParts

theorem getItem_signed (h : RoleParts role signed first further) :
    role.getItem "signed" = .ok (.dict signed) := by
  obtain ⟨entries, rfl, hsigned, -⟩ := h
  exact getItem_of_lookup hsigned

theorem getD_signatures (h : RoleParts role signed first further) (default : Json) :
    role.getD "signatures" default = .ok (.list (.dict first :: further)) := by
  obtain ⟨entries, rfl, -, hsignatures⟩ := h
  exact getD_of_lookup default hsignatures

theorem loadRole (h : RoleParts role signed first further) {release : Release}
    (hfile : release.metadata filename = some (.ok role)) :
    UptaneVerifier.loadRole release filename = .ok role := by
  obtain ⟨entries, rfl, hsigned, hsignatures⟩ := h
  simp only [UptaneVerifier.loadRole, hfile, contains_of_lookup hsigned,
    contains_of_lookup hsignatures, raiseIf, bind, Except.bind, pure, Except.pure]
  rfl

theorem setSigned (h : RoleParts role signed first further) (key : String) (value : Json) :
    ∃ role', Scripts.setSigned role key value = .ok role' ∧
      RoleParts role' (Dict.setEntries signed key value) first further := by
  have hsigned := h.getItem_signed
  obtain ⟨entries, rfl, -, hsignatures⟩ := h
  refine ⟨.dict (Dict.setEntries entries "signed" (.dict (Dict.setEntries signed key value))), ?_,
    _, rfl, lookup_set _ _ _, ?_⟩
  · simp only [Scripts.setSigned, hsigned, Json.setItem, bind, Except.bind]
  · rwa [lookup_set_of_ne (by decide)]

theorem setFirstSignature (h : RoleParts role signed first further) (sig : String) :
    ∃ role', Scripts.setFirstSignature role sig = .ok role' ∧
      RoleParts role' signed (Dict.setEntries first "sig" (.str sig)) further := by
  obtain ⟨entries, rfl, hsigned, hsignatures⟩ := h
  refine ⟨.dict (Dict.setEntries entries "signatures"
    (.list (.dict (Dict.setEntries first "sig" (.str sig)) :: further))), ?_, _, rfl, ?_, lookup_set _ _ _⟩
  · simp only [Scripts.setFirstSignature, getItem_of_lookup hsignatures, Json.setItem, bind, Except.bind]
  · rwa [lookup_set_of_ne (by decide)]

end RoleParts

/-! ## One renewed role -/

/-- The signed part with the next version and the new date. -/
def dated (signed : List (String × Json)) (version : ℤ) (expires : String) : List (String × Json) :=
  Dict.setEntries (Dict.setEntries signed "version" (.int version)) "expires" (.str expires)

theorem lookup_dated {version : ℤ} {expires key : String} (hversion : key ≠ "version")
    (hexpires : key ≠ "expires") :
    Json.lookup (dated signed version expires) key = Json.lookup signed key := by
  rw [dated, lookup_set_of_ne hexpires, lookup_set_of_ne hversion]

/-- What the verifier reads of a role that the script has renewed. -/
structure Renewed (roleName : String) (key : Bytes) (version : ℤ) (expires field : String)
    (value : Json) (further : List Json) (role : Json) (signed first : List (String × Json)) : Prop where
  parts : RoleParts role signed first further
  name : Json.lookup signed "role" = some (.str roleName)
  version : Json.lookup signed "version" = some (.int version)
  expires : Json.lookup signed "expires" = some (.str expires)
  field : Json.lookup signed field = some value
  keyid : Json.lookup first "keyid" = some (.str "demo-root")
  sig : Json.lookup first "sig" =
    some (.str (hexDigest (hmacSha256 key (Json.dict signed).canonicalBytes)))

/-- A document of a role of this name, with a first signature by `demo-root`. -/
structure DemoDocument (roleName : String) (version : ℤ) (role : Json)
    (signed first : List (String × Json)) (further : List Json) : Prop where
  parts : RoleParts role signed first further
  name : Json.lookup signed "role" = some (.str roleName)
  versioned : signedVersion (.dict signed) = .ok version
  one_le : 1 ≤ version
  keyid : Json.lookup first "keyid" = some (.str "demo-root")

section Renew

variable {keyHex : Json} {key : Bytes} {version : ℤ} {expires field : String}
  {content : Json → Except PyError Json}

theorem nextVersion_eq (hparts : RoleParts role signed first further)
    (hversion : signedVersion (.dict signed) = .ok version) : nextVersion role = .ok (version + 1) := by
  simp only [signedVersion, bind_eq_ok] at hversion
  obtain ⟨text, htext, hint⟩ := hversion
  simp only [nextVersion, hparts.getItem_signed, htext, hint, bind, Except.bind, pure, Except.pure]

theorem DemoDocument.renew (h : DemoDocument roleName version role signed first further)
    (hkey : keyHex.bytesFromHex = .ok key) (hfield : field ∉ ["role", "version", "expires"])
    (hcontent : content (.dict (dated signed (version + 1) expires)) = .ok value) :
    ∃ role' signed' first', Scripts.renew keyHex role expires field content = .ok role' ∧
      Renewed roleName key (version + 1) expires field value further role' signed' first' := by
  simp only [List.mem_cons, List.not_mem_nil, or_false, not_or] at hfield
  obtain ⟨hrole, hversion, hexpires⟩ := hfield
  obtain ⟨role₁, h₁, hparts₁⟩ := h.parts.setSigned "version" (.int (version + 1))
  obtain ⟨role₂, h₂, hparts₂⟩ := hparts₁.setSigned "expires" (.str expires)
  obtain ⟨role₃, h₃, hparts₃⟩ := hparts₂.setSigned field value
  have hsign : signPayload keyHex (.dict (Dict.setEntries (dated signed (version + 1) expires) field
      value)) = .ok (hexDigest (hmacSha256 key (Json.dict (Dict.setEntries
        (dated signed (version + 1) expires) field value)).canonicalBytes)) := by
    simp only [signPayload, hkey, bind, Except.bind, pure, Except.pure]
  obtain ⟨role₄, h₄, hparts₄⟩ := hparts₃.setFirstSignature (hexDigest (hmacSha256 key (Json.dict
    (Dict.setEntries (dated signed (version + 1) expires) field value)).canonicalBytes))
  refine ⟨role₄, _, _, ?_, hparts₄, ?_, ?_, ?_, lookup_set _ _ _, ?_, lookup_set _ _ _⟩
  · rw [dated] at hcontent hsign h₄
    simp only [Scripts.renew, nextVersion_eq h.parts h.versioned, h₁, h₂, hparts₂.getItem_signed,
      hcontent, h₃, hparts₃.getItem_signed, hsign, h₄, bind, Except.bind]
  · rw [lookup_set_of_ne (Ne.symm hrole), ← dated, lookup_dated (by decide) (by decide), h.name]
  · rw [lookup_set_of_ne (Ne.symm hversion), lookup_set_of_ne (by decide), lookup_set]
  · rw [lookup_set_of_ne (Ne.symm hexpires), lookup_set]
  · rw [lookup_set_of_ne (by decide), h.keyid]

/-- Where the new field cannot be computed, the role is not renewed. -/
theorem DemoDocument.renew_ok (h : DemoDocument roleName version role signed first further)
    {role' : Json} (hrenew : Scripts.renew keyHex role expires field content = .ok role') :
    ∃ value, content (.dict (dated signed (version + 1) expires)) = .ok value := by
  obtain ⟨role₁, h₁, hparts₁⟩ := h.parts.setSigned "version" (.int (version + 1))
  obtain ⟨role₂, h₂, hparts₂⟩ := hparts₁.setSigned "expires" (.str expires)
  simp only [Scripts.renew, bind_eq_ok, nextVersion_eq h.parts h.versioned, h₁, h₂,
    hparts₂.getItem_signed, Except.ok.injEq, exists_eq_left'] at hrenew
  obtain ⟨value, hvalue, -⟩ := hrenew
  exact ⟨value, hvalue⟩

end Renew

/-! ## The targets -/

def requiredFields : List String :=
  ["ecu_name", "hardware_variant", "target_version", "minimum_bootloader"]

/-- `transport_support` is a list if it is there, and the fallback is there if it is needed. -/
def HasTransport (fields : List (String × Json)) : Prop :=
  (∃ x xs, Json.lookup fields "transport_support" = some (.list (x :: xs))) ∨
    ((Json.lookup fields "transport_support" = none ∨
        Json.lookup fields "transport_support" = some (.list [])) ∧
      ∃ transport, Json.lookup fields "transport" = some transport)

/-- A package with the required fields and an artifact. -/
def Complete (directory : ReleaseDirectory) (package : Json) : Prop :=
  ∃ fields file artifact, package = .dict fields ∧ Json.lookup fields "file" = some (.str file) ∧
    directory.artifacts file = some artifact ∧
    (∀ field ∈ requiredFields, ∃ value, Json.lookup fields field = some value) ∧ HasTransport fields

/-- What `_validate_target_metadata` asks of the `custom` dictionary. -/
def ValidCustom (custom : List (String × Json)) : Prop :=
  (∀ field ∈ requiredCustom, field ∈ custom.map Prod.fst) ∧
    ∃ x xs, Json.lookup custom "transport_support" = some (.list (x :: xs))

/-- An entry of the refreshed targets. -/
def Built (directory : ReleaseDirectory) (file : String) (entry : Json) : Prop :=
  ∃ artifact custom, directory.artifacts file = some artifact ∧ ValidCustom custom ∧
    entry = .dict [("length", .int artifact.length),
      ("hashes", .dict [("sha256", .str (hexDigest (sha256 artifact)))]), ("custom", .dict custom)]

section Targets

variable {directory : ReleaseDirectory} {package : Json} {fields custom : List (String × Json)}

theorem transportSupport_ok (h : HasTransport fields) :
    ∃ x xs, transportSupport (.dict fields) = .ok (.list (x :: xs)) := by
  rcases h with ⟨x, xs, hsupport⟩ | ⟨habsent, transport, htransport⟩
  · refine ⟨x, xs, ?_⟩
    simp [transportSupport, getD_of_lookup _ hsupport, Json.truthy, bind, Except.bind, pure, Except.pure]
  · refine ⟨transport, [], ?_⟩
    rcases habsent with habsent | hempty
    · simp [transportSupport, Json.getD, habsent, Json.truthy, getItem_of_lookup htransport, bind,
        Except.bind, pure, Except.pure]
    · simp [transportSupport, Json.getD, hempty, Json.truthy, getItem_of_lookup htransport, bind,
        Except.bind, pure, Except.pure]

theorem ValidCustom.set {field : String} (h : ValidCustom custom) (value : Json)
    (hfield : field ∉ requiredCustom) : ValidCustom (Dict.setEntries custom field value) := by
  obtain ⟨hkeys, x, xs, hsupport⟩ := h
  refine ⟨fun other hother ↦ ?_, x, xs, ?_⟩
  · rw [Dict.setEntries_keys]
    split
    · exact hkeys other hother
    · exact List.mem_append_left _ (hkeys other hother)
  · rwa [lookup_set_of_ne]
    exact fun h ↦ hfield (h ▸ by decide)

theorem copyField_ok {field : String} (h : ValidCustom custom) (hfield : field ∉ requiredCustom) :
    ∃ custom', copyField (.dict fields) custom field = .ok custom' ∧ ValidCustom custom' := by
  cases hlookup : Json.lookup fields field with
  | some value =>
      refine ⟨Dict.setEntries custom field value, ?_, h.set value hfield⟩
      simp only [copyField, contains_of_lookup hlookup, getItem_of_lookup hlookup, bind, Except.bind,
        pure, Except.pure, if_true]
  | none =>
      refine ⟨custom, ?_, h⟩
      have hany : (fields.any fun e ↦ Json.eq (.str field) (.str e.1)) = false := by
        have hnone : fields.find? (fun e ↦ e.1 = field) = none := Option.map_eq_none_iff.mp hlookup
        rw [List.find?_eq_none] at hnone
        rw [List.any_eq_false]
        intro e he heq
        exact hnone e he (by simpa [Json.eq, eq_comm] using heq)
      simp [copyField, Json.contains, Json.hashable, hany, bind, Except.bind, pure, Except.pure]

theorem copyFields_ok {names : List String} (h : ValidCustom custom)
    (hnames : ∀ field ∈ names, field ∉ requiredCustom) :
    ∃ custom', names.foldlM (copyField (.dict fields)) custom = .ok custom' ∧
      ValidCustom custom' := by
  induction names generalizing custom with
  | nil => exact ⟨custom, rfl, h⟩
  | cons field names ih =>
      obtain ⟨custom₁, h₁, hvalid₁⟩ := copyField_ok h (hnames field List.mem_cons_self)
      obtain ⟨custom₂, h₂, hvalid₂⟩ :=
        ih hvalid₁ fun other hother ↦ hnames other (List.mem_cons_of_mem _ hother)
      refine ⟨custom₂, ?_, hvalid₂⟩
      rw [List.foldlM_cons, h₁]
      exact h₂

theorem customFields_ok
    (hfields : ∀ field ∈ requiredFields, ∃ value, Json.lookup fields field = some value)
    (htransport : HasTransport fields) :
    ∃ custom, customFields (.dict fields) = .ok custom ∧ ValidCustom custom := by
  obtain ⟨ecuName, hecuName⟩ := hfields "ecu_name" (by decide)
  obtain ⟨variant, hvariant⟩ := hfields "hardware_variant" (by decide)
  obtain ⟨target, htarget⟩ := hfields "target_version" (by decide)
  obtain ⟨bootloader, hbootloader⟩ := hfields "minimum_bootloader" (by decide)
  obtain ⟨x, xs, hsupport⟩ := transportSupport_ok htransport
  have hstart : ValidCustom [("ecu_name", ecuName), ("hardware_variant", variant),
      ("target_version", target), ("minimum_bootloader", bootloader),
      ("transport_support", .list (x :: xs))] :=
    ⟨fun _ h ↦ h, x, xs, rfl⟩
  obtain ⟨custom, hcustom, hvalid⟩ :=
    @copyFields_ok fields _ optionalFields hstart (by decide)
  refine ⟨custom, ?_, hvalid⟩
  simp only [customFields, getItem_of_lookup hecuName, getItem_of_lookup hvariant,
    getItem_of_lookup htarget, getItem_of_lookup hbootloader, hsupport, hcustom, bind, Except.bind]

theorem buildTargetEntry_ok {file : String} {artifact : Bytes}
    (hartifact : directory.artifacts file = some artifact)
    (hfields : ∀ field ∈ requiredFields, ∃ value, Json.lookup fields field = some value)
    (htransport : HasTransport fields) :
    ∃ entry, buildTargetEntry (.dict fields) artifact = .ok entry ∧ Built directory file entry := by
  obtain ⟨custom, hcustom, hvalid⟩ := customFields_ok hfields htransport
  refine ⟨_, ?_, artifact, custom, hartifact, hvalid, rfl⟩
  simp only [buildTargetEntry, hcustom, bind, Except.bind, pure, Except.pure]

/-- Every entry is built from the artifact of its file. -/
def AllBuilt (directory : ReleaseDirectory) (refreshed : Dict String Json) : Prop :=
  ∀ file entry, refreshed.get? file = some entry → Built directory file entry

/-- The file of a package. -/
def IsFileOf (file : String) (package : Json) : Prop := package.getItem "file" = .ok (.str file)

theorem refreshTarget_ok (h : Complete directory package) {refreshed : Dict String Json}
    (hbuilt : AllBuilt directory refreshed) :
    ∃ file refreshed', IsFileOf file package ∧
      refreshTarget directory refreshed package = .ok refreshed' ∧ AllBuilt directory refreshed' ∧
      ∀ other, other ∈ refreshed'.keys ↔ other ∈ refreshed.keys ∨ other = file := by
  obtain ⟨fields, file, artifact, rfl, hfile, hartifact, hfields, htransport⟩ := h
  obtain ⟨entry, hentry, hnew⟩ := buildTargetEntry_ok hartifact hfields htransport
  refine ⟨file, refreshed.set file entry, getItem_of_lookup hfile, ?_, ?_, fun other ↦ ?_⟩
  · simp only [refreshTarget, getItem_of_lookup hfile, hartifact, hentry, bind, Except.bind, pure,
      Except.pure]
  · intro other entry hother
    rw [Dict.get?_set] at hother
    split at hother
    · rename_i heq
      obtain rfl := Option.some.inj hother
      exact heq ▸ hnew
    · exact hbuilt other entry hother
  · rw [Dict.keys_set]
    split
    · rename_i hmem
      exact ⟨Or.inl, fun h ↦ h.elim id fun h ↦ h ▸ hmem⟩
    · rw [List.mem_append, List.mem_singleton]

/-- The loop over complete packages: one entry for each file of a package. -/
theorem refreshTargets_ok {packages : List Json} (h : ∀ package ∈ packages, Complete directory package)
    {refreshed : Dict String Json} (hbuilt : AllBuilt directory refreshed) :
    ∃ refreshed', packages.foldlM (refreshTarget directory) refreshed = .ok refreshed' ∧
      AllBuilt directory refreshed' ∧
      ∀ file, file ∈ refreshed'.keys ↔
        file ∈ refreshed.keys ∨ ∃ package ∈ packages, IsFileOf file package := by
  induction packages generalizing refreshed with
  | nil => exact ⟨refreshed, rfl, hbuilt, fun file ↦ by simp⟩
  | cons package packages ih =>
      obtain ⟨name, between, hname, hstep, hbetween, hkeys⟩ :=
        refreshTarget_ok (h package List.mem_cons_self) hbuilt
      obtain ⟨refreshed', hrest, hbuilt', hkeys'⟩ :=
        ih (fun other hother ↦ h other (List.mem_cons_of_mem _ hother)) hbetween
      refine ⟨refreshed', ?_, hbuilt', fun file ↦ ?_⟩
      · rw [List.foldlM_cons, hstep]
        exact hrest
      · have hfile : IsFileOf file package ↔ file = name := by
          rw [IsFileOf, hname, Except.ok.injEq, Json.str.injEq, eq_comm]
        simp only [hkeys', hkeys, List.mem_cons, exists_eq_or_imp, hfile, or_assoc]

theorem validateTargetMetadata_ok {file : String} {entry : Json}
    (hcustom : entry.getD "custom" (.dict []) = .ok (.dict custom)) (h : ValidCustom custom) :
    validateTargetMetadata file entry = .ok () := by
  obtain ⟨hkeys, x, xs, hsupport⟩ := h
  have hmissing : requiredCustom.filter (· ∉ custom.map Prod.fst) = [] := by
    rw [List.filter_eq_nil_iff]
    intro field hfield
    simpa using hkeys field hfield
  simp only [validateTargetMetadata, hcustom, Json.keys, hmissing, getD_of_lookup _ hsupport, raiseIf,
    bind, Except.bind, pure, Except.pure, ne_eq, not_true_eq_false, if_false]

/-- The target that the verifier returns for an entry. -/
def TrueTarget (directory : ReleaseDirectory) (t : UptaneVerifier.TrustedTarget) : Prop :=
  ∃ artifact, directory.artifacts t.file = some artifact ∧ t.length = artifact.length ∧
    t.sha256 = hexDigest (sha256 artifact)

theorem Built.verifyArtifact {file : String} {entry : Json} {now : ℤ} (h : Built directory file entry) :
    ∃ t, UptaneVerifier.verifyArtifact (directory.release now) file entry = .ok t ∧ t.file = file ∧
      TrueTarget directory t := by
  obtain ⟨artifact, custom, hartifact, hvalid, rfl⟩ := h
  refine ⟨⟨file, artifact.length, hexDigest (sha256 artifact), .dict custom⟩, ?_, rfl, artifact,
    hartifact, rfl, rfl⟩
  have hmetadata := @validateTargetMetadata_ok _ file (.dict [("length", .int artifact.length),
    ("hashes", .dict [("sha256", .str (hexDigest (sha256 artifact)))]), ("custom", .dict custom)])
    rfl hvalid
  simp only [UptaneVerifier.verifyArtifact, ReleaseDirectory.release, hartifact, hmetadata]
  simp [Json.getItem, Json.lookup, Json.eq, Json.rational?, Json.getD, raiseIf, bind, Except.bind,
    pure, Except.pure]

theorem names_of_forall₂ {es : List (String × Json)} {ts : List UptaneVerifier.TrustedTarget}
    (h : List.Forall₂ (fun e t ↦ t.file = e.1 ∧ TrueTarget directory t) es ts) :
    ts.map UptaneVerifier.TrustedTarget.file = es.map Prod.fst ∧ ∀ t ∈ ts, TrueTarget directory t := by
  induction h with
  | nil => exact ⟨rfl, fun t ht ↦ absurd ht List.not_mem_nil⟩
  | cons hfirst _ ih =>
      obtain ⟨hnames, htrue⟩ := ih
      refine ⟨by rw [List.map_cons, List.map_cons, hfirst.1, hnames], fun t ht ↦ ?_⟩
      rcases List.mem_cons.mp ht with rfl | ht
      · exact hfirst.2
      · exact htrue t ht

/-- The verifier returns one target for each key of the refreshed targets. -/
theorem verifyArtifacts_ok {refreshed : Dict String Json} {now : ℤ} (h : AllBuilt directory refreshed) :
    ∃ targets, verifyArtifacts (directory.release now) (.dict refreshed.entries) = .ok targets ∧
      targets.map UptaneVerifier.TrustedTarget.file = refreshed.keys ∧
        ∀ t ∈ targets, TrueTarget directory t := by
  have hentries : ∀ e ∈ refreshed.entries, ∃ t,
      UptaneVerifier.verifyArtifact (directory.release now) e.1 e.2 = .ok t ∧
        (t.file = e.1 ∧ TrueTarget directory t) := by
    intro e he
    exact (h e.1 e.2 ((Dict.get?_eq_some_iff refreshed e.1 e.2).mpr he)).verifyArtifact
  obtain ⟨targets, htargets, hall⟩ := exists_mapM_eq_ok hentries
  exact ⟨targets, htargets, names_of_forall₂ hall⟩

end Targets

/-! ## Signatures -/

/-- With this entry for its key, if that is one for HMAC-SHA256, the key is hexadecimal and the
signature an ASCII text. -/
def ReadableWith (keyEntry signature : Json) : Prop :=
  ∃ algorithm, keyEntry.getD "algorithm" .null = .ok algorithm ∧
    (algorithm.eq (.str "hmac-sha256") = true → ∃ keyHex key text,
      keyEntry.getItem "key" = .ok keyHex ∧ keyHex.bytesFromHex = .ok key ∧
      signature.getItem "sig" = .ok (.str text) ∧ (text.toList.all fun c ↦ c.toNat < 128) = true)

/-- A signature that the verifier can read: it names its key, and if the role lists the key and the
root has it, it can be read with that key. -/
def Readable (trustedKeys roleRule signature : Json) : Prop :=
  ∃ keyid keyids listed, signature.getItem "keyid" = .ok keyid ∧
    roleRule.getItem "keyids" = .ok keyids ∧ keyids.contains keyid = .ok listed ∧
    (listed = true → ∃ keyEntry, trustedKeys.getKey keyid = .ok keyEntry ∧
      (keyEntry ≠ .null → ReadableWith keyEntry signature))

section Signatures

variable {keys rule s : Json} {bytes : Bytes} {ids ids' : List String}

theorem compareDigest_ok {expected : String} {sig : Json} {b : Bool}
    (h : compareDigest expected sig = .ok b) :
    ∃ text, sig = .str text ∧ (text.toList.all fun c ↦ c.toNat < 128) = true := by
  cases sig with
  | str text =>
      simp only [compareDigest] at h
      split at h
      · exact ⟨text, rfl, by assumption⟩
      · cases h
  | _ => cases h

theorem countSignature_ok (h : countSignature keys rule bytes ids s = .ok ids') :
    Readable keys rule s ∧ ids ⊆ ids' := by
  simp only [countSignature, bind_eq_ok] at h
  obtain ⟨keyid, hkeyid, keyids, hkeyids, listed, hlisted, h⟩ := h
  suffices hread : (listed = true → ∃ keyEntry, keys.getKey keyid = .ok keyEntry ∧
      (keyEntry ≠ .null → ReadableWith keyEntry s)) ∧ ids ⊆ ids' from
    ⟨⟨keyid, keyids, listed, hkeyid, hkeyids, hlisted, hread.1⟩, hread.2⟩
  cases listed with
  | false =>
      obtain rfl := Except.ok.inj h
      exact ⟨fun h ↦ (by cases h), List.Subset.refl _⟩
  | true =>
      simp only [Bool.not_true, Bool.false_eq_true, if_false, bind_eq_ok] at h
      obtain ⟨keyEntry, hentry, h⟩ := h
      suffices hread : (keyEntry ≠ .null → ReadableWith keyEntry s) ∧ ids ⊆ ids' from
        ⟨fun _ ↦ ⟨keyEntry, hentry, hread.1⟩, hread.2⟩
      split at h
      · obtain rfl := Except.ok.inj h
        exact ⟨fun hne ↦ absurd rfl hne, List.Subset.refl _⟩
      · simp only [bind_eq_ok] at h
        obtain ⟨algorithm, halgorithm, h⟩ := h
        split at h
        · rename_i hother
          obtain rfl := Except.ok.inj h
          refine ⟨fun _ ↦ ⟨algorithm, halgorithm, fun heq ↦ ?_⟩, List.Subset.refl _⟩
          rw [heq] at hother
          cases hother
        · simp only [bind_eq_ok] at h
          obtain ⟨keyHex, hkeyHex, key, hkey, sig, hsig, valid, hvalid, h⟩ := h
          obtain ⟨text, rfl, hascii⟩ := compareDigest_ok hvalid
          refine ⟨fun _ ↦ ⟨algorithm, halgorithm, fun _ ↦
            ⟨keyHex, key, text, hkeyHex, hkey, hsig, hascii⟩⟩, ?_⟩
          split at h
          · obtain rfl := Except.ok.inj h
            exact List.Subset.refl _
          · split at h <;> obtain rfl := Except.ok.inj h
            · split
              · exact List.Subset.refl _
              · exact List.subset_append_left _ _
            · exact List.Subset.refl _

theorem countSignature_of_readable (h : Readable keys rule s) (bytes : Bytes) (ids : List String) :
    ∃ ids', countSignature keys rule bytes ids s = .ok ids' := by
  obtain ⟨keyid, keyids, listed, hkeyid, hkeyids, hlisted, h⟩ := h
  simp only [countSignature, bind_eq_ok, hkeyid, hkeyids, hlisted, Except.ok.injEq, exists_eq_left']
  cases listed with
  | false => exact ⟨ids, rfl⟩
  | true =>
      obtain ⟨keyEntry, hentry, h⟩ := h rfl
      simp only [Bool.not_true, Bool.false_eq_true, if_false, bind_eq_ok, hentry, Except.ok.injEq,
        exists_eq_left']
      split
      · exact ⟨ids, rfl⟩
      · rename_i hne
        obtain ⟨algorithm, halgorithm, h⟩ := h hne
        simp only [bind_eq_ok, halgorithm, Except.ok.injEq, exists_eq_left']
        split
        · exact ⟨ids, rfl⟩
        · rename_i hother
          obtain ⟨keyHex, key, text, hkeyHex, hkey, hsig, hascii⟩ := h (by simpa using hother)
          simp only [bind_eq_ok, hkeyHex, hkey, hsig, compareDigest, hascii, if_true, Except.ok.injEq,
            exists_eq_left']
          split
          · exact ⟨ids, rfl⟩
          · split
            · exact ⟨_, rfl⟩
            · exact ⟨ids, rfl⟩

theorem countSignatures_ok {signatures : List Json}
    (h : signatures.foldlM (countSignature keys rule bytes) ids = .ok ids') :
    (∀ s ∈ signatures, Readable keys rule s) ∧ ids ⊆ ids' := by
  induction signatures generalizing ids with
  | nil =>
      obtain rfl := Except.ok.inj h
      exact ⟨fun s hs ↦ absurd hs List.not_mem_nil, List.Subset.refl _⟩
  | cons s signatures ih =>
      rw [List.foldlM_cons] at h
      obtain ⟨between, hs, hrest⟩ := bind_eq_ok.mp h
      obtain ⟨hread, hsubset⟩ := countSignature_ok hs
      obtain ⟨hreads, hsubset'⟩ := ih hrest
      exact ⟨List.forall_mem_cons.mpr ⟨hread, hreads⟩, List.Subset.trans hsubset hsubset'⟩

theorem countSignatures_of_readable {signatures : List Json}
    (h : ∀ s ∈ signatures, Readable keys rule s) (bytes : Bytes) (ids : List String) :
    ∃ ids', signatures.foldlM (countSignature keys rule bytes) ids = .ok ids' := by
  induction signatures generalizing ids with
  | nil => exact ⟨ids, rfl⟩
  | cons s signatures ih =>
      rw [List.forall_mem_cons] at h
      obtain ⟨between, hbetween⟩ := countSignature_of_readable h.1 bytes ids
      obtain ⟨ids', hids⟩ := ih h.2 between
      refine ⟨ids', ?_⟩
      rw [List.foldlM_cons, hbetween]
      exact hids

/-- The key `demo-root` can sign for a role: threshold 1, and an entry for HMAC-SHA256. -/
structure Trusts (keys rule : Json) (key : Bytes) : Prop where
  threshold : rule.getItem "threshold" = .ok (.int 1)
  listed : ∃ keyids, rule.getItem "keyids" = .ok keyids ∧
    keyids.contains (.str "demo-root") = .ok true
  entry : ∃ entry keyHex, keys.getItem "demo-root" = .ok entry ∧
    entry.getItem "algorithm" = .ok (.str "hmac-sha256") ∧ entry.getItem "key" = .ok keyHex ∧
    keyHex.bytesFromHex = .ok key

variable {key : Bytes} {version : ℤ} {expires field : String}

theorem getKey_of_getItem {keys entry : Json} {name : String} (h : keys.getItem name = .ok entry) :
    keys.getKey (.str name) = .ok entry := by
  have hget := getD_of_getItem .null h
  cases keys with
  | dict entries => exact hget
  | _ => cases h

/-- The first signature of a renewed role is counted. -/
theorem Renewed.countSignature_first
    (h : Renewed roleName key version expires field value further role signed first)
    (htrusts : Trusts keys rule key) :
    countSignature keys rule (Json.dict signed).canonicalBytes [] (.dict first) = .ok ["demo-root"] := by
  obtain ⟨keyids, hkeyids, hlisted⟩ := htrusts.listed
  obtain ⟨entry, keyHex, hentry, halgorithm, hkeyHex, hkey⟩ := htrusts.entry
  have hnull : entry ≠ .null := by
    rintro rfl
    cases halgorithm
  have hhmac : (Json.str "hmac-sha256").eq (.str "hmac-sha256") = true := by simp [Json.eq]
  simp only [countSignature, bind_eq_ok, getItem_of_lookup h.keyid, hkeyids, hlisted,
    getKey_of_getItem hentry, Bool.not_true, Bool.false_eq_true, if_false, Except.ok.injEq,
    exists_eq_left']
  refine ⟨_, getD_of_getItem _ halgorithm, ?_⟩
  simp only [bind_eq_ok, hhmac, hkeyHex, hkey, getItem_of_lookup h.sig, compareDigest_self,
    Bool.not_true, Bool.false_eq_true, if_false, Except.ok.injEq, exists_eq_left']
  rfl

/-- The signatures of a renewed role are accepted if and only if the further ones can be read. -/
theorem Renewed.verifySignatures_iff
    (h : Renewed roleName key version expires field value further role signed first)
    (htrusts : Trusts keys rule key) :
    verifySignatures role roleName keys rule = .ok () ↔ ∀ s ∈ further, Readable keys rule s := by
  have hvalid : validKeyids role keys rule =
      further.foldlM (countSignature keys rule (Json.dict signed).canonicalBytes) ["demo-root"] := by
    simp only [validKeyids, h.parts.getD_signatures, h.parts.getItem_signed, Json.iter, bind,
      Except.bind, List.foldlM_cons, h.countSignature_first htrusts]
  constructor
  · intro hverify
    simp only [verifySignatures, bind_eq_ok] at hverify
    obtain ⟨_, -, _, -, _, -, _, -, _, -, ids, hids, -⟩ := hverify
    rw [hvalid] at hids
    exact (countSignatures_ok hids).1
  · intro hread
    obtain ⟨ids, hids⟩ := countSignatures_of_readable hread (Json.dict signed).canonicalBytes
      ["demo-root"]
    have hmem : "demo-root" ∈ ids := (countSignatures_ok hids).2 List.mem_cons_self
    have hpos : 0 < ids.length := List.length_pos_of_mem hmem
    have hcount : (Json.list (.dict first :: further)).len = .ok (further.length + 1) := rfl
    simp only [verifySignatures, h.parts.getD_signatures, hcount, htrusts.threshold, hvalid, hids,
      Json.intLt, bind, Except.bind]
    rw [raiseIf, if_neg (by simp only [decide_eq_true_eq]; omega)]
    exact raiseIf_eq_ok.mpr (by simp only [decide_eq_true_eq]; omega)

end Signatures

end VehicleOta.Scripts
