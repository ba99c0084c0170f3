import VehicleOta.Tcu.RootOfTrust

/-!
# The signature threshold

What is counted are the keys of a role that have signed its document, not the entries of its list
of signatures.
-/

namespace VehicleOta.Tcu.UptaneVerifier

open Hash

/-! ## Signatures that count -/

/-- `keyid in role_rule["keyids"]` -/
def Listed (rule : Json) (keyid : String) : Prop :=
  ∃ keyids, rule.getItem "keyids" = .ok keyids ∧ keyids.contains (.str keyid) = .ok true

/-- The key table has this key for HMAC-SHA256 under the key id. -/
def HmacKey (keys : Json) (keyid : String) (key : Bytes) : Prop :=
  ∃ entry text, keys.getItem keyid = .ok entry ∧
    entry.getItem "algorithm" = .ok (.str "hmac-sha256") ∧
    entry.getItem "key" = .ok (.str text) ∧ fromHex text.toList = .ok key

/-- The entry is the signature of these bytes under the key id. -/
def SignedBy (keys : Json) (bytes : Bytes) (keyid : String) (s : Json) : Prop :=
  ∃ key, HmacKey keys keyid key ∧ s.getItem "keyid" = .ok (.str keyid) ∧
    s.getItem "sig" = .ok (.str (hexDigest (hmacSha256 key bytes)))

/-- A valid signature under a key id that the role lists. -/
def Counts (keys rule : Json) (bytes : Bytes) (keyid : String) (s : Json) : Prop :=
  Listed rule keyid ∧ SignedBy keys bytes keyid s

/-! ## Well-formed documents -/

/-- A key table in which the keys for HMAC-SHA256 are hexadecimal. -/
def WellFormedKeys (keys : Json) : Prop :=
  ∃ table, keys = .dict table ∧ ∀ keyid entry, Json.lookup table keyid = some entry →
    entry = .null ∨ ∃ fields, entry = .dict fields ∧
      (Json.lookup fields "algorithm" = some (.str "hmac-sha256") → ∃ text key,
        Json.lookup fields "key" = some (.str text) ∧ fromHex text.toList = .ok key)

/-- An entry with two texts, of which the signature is ASCII. -/
def WellFormedSignature (s : Json) : Prop :=
  ∃ keyid sig, s.getItem "keyid" = .ok (.str keyid) ∧ s.getItem "sig" = .ok (.str sig) ∧
    (sig.toList.all fun c ↦ c.toNat < 128) = true

/-- A role document with this signed section and these signatures. -/
structure Document (role signed : Json) (signatures : List Json) : Prop where
  section_eq : role.getItem "signed" = .ok signed
  entries_eq : role.getD "signatures" (.list []) = .ok (.list signatures)
  wellFormed : ∀ s ∈ signatures, WellFormedSignature s

/-- The key table of a root that `_validate_root` accepts, and its rule for a role, with an integer
as the threshold. -/
structure AcceptedRule (root : Json) (roleName : String) (keys rule : Json) (threshold : ℤ) :
    Prop where
  validated : validateRoot root = .ok ()
  required : roleName ∈ requiredRoles
  table : root.getItem "keys" = .ok keys
  ruled : ∃ roles, root.getItem "roles" = .ok roles ∧ roles.getItem roleName = .ok rule
  integer : rule.getItem "threshold" = .ok (.int threshold)
  wellFormed : WellFormedKeys keys

variable {root keys rule role signed s : Json} {roleName : String} {threshold : ℤ} {bytes : Bytes}
  {ids : List String} {signatures : List Json}

/-! ## The rule of a role -/

theorem getItem_of_getD {x value default : Json} {key : String} (h : x.getD key default = .ok value) :
    x.getItem key = .ok value ∨ value = default := by
  cases x with
  | dict entries =>
      rw [Json.getD, Except.ok.injEq] at h
      rw [Json.getItem]
      cases hlookup : Json.lookup entries key with
      | none => exact Or.inr (by rw [← h, hlookup, Option.getD_none])
      | some found => exact Or.inl (by rw [← h, hlookup, Option.getD_some])
  | _ => cases h

/-- What has a length can be searched for a text. -/
theorem contains_of_len {x : Json} {n : ℕ} (h : x.len = .ok n) (text : String) :
    ∃ b, x.contains (.str text) = .ok b := by
  cases x with
  | str _ => exact ⟨_, rfl⟩
  | list _ => exact ⟨_, rfl⟩
  | dict _ => exact ⟨_, rfl⟩
  | _ => cases h

/-- An accepted rule lists key ids. -/
theorem AcceptedRule.exists_keyids (h : AcceptedRule root roleName keys rule threshold) :
    ∃ keyids, rule.getItem "keyids" = .ok keyids ∧
      ∀ keyid : String, ∃ b, keyids.contains (.str keyid) = .ok b := by
  obtain ⟨roles, hroles, hrule⟩ := h.ruled
  have hvalidated := h.validated
  simp only [validateRoot, bind_eq_ok, getD_of_getItem _ hroles, getD_of_getItem _ h.table,
    Except.ok.injEq, exists_eq_left'] at hvalidated
  obtain ⟨_, -, _, -, hforM⟩ := hvalidated
  have hvalid := forM_eq_ok.mp hforM roleName h.required
  simp only [validateRule, bind_eq_ok, hrule, Except.ok.injEq, exists_eq_left'] at hvalid
  obtain ⟨_, -, n, -, keyids, hkeyids, _, hpos, count, hcount, _, hmet, -⟩ := hvalid
  refine ⟨keyids, (getItem_of_getD hkeyids).resolve_right ?_, contains_of_len hcount⟩
  rintro rfl
  obtain rfl := Except.ok.inj hcount
  exact raiseIf_eq_ok.mp hmet (Int.lt_of_lt_of_le Int.zero_lt_one (not_lt.mp (raiseIf_eq_ok.mp hpos)))

/-! ## One signature -/

theorem eq_str {x : Json} {text : String} : x.eq (.str text) = true ↔ x = .str text := by
  cases x <;> simp [Json.eq, Json.rational?]

/-- What a loop over signatures makes of the key ids found so far. -/
structure Gathered (keys rule : Json) (bytes : Bytes) (signatures : List Json)
    (ids ids' : List String) : Prop where
  mem : ∀ keyid, keyid ∈ ids' ↔ keyid ∈ ids ∨ ∃ s ∈ signatures, Counts keys rule bytes keyid s
  nodup : ids.Nodup → ids'.Nodup
  length : ids'.length ≤ ids.length + signatures.length

theorem Gathered.nil : Gathered keys rule bytes [] ids ids where
  mem _ := (or_iff_left fun h ↦ absurd h.choose_spec.1 List.not_mem_nil).symm
  nodup h := h
  length := le_rfl

theorem Gathered.cons {ids' ids'' : List String} (hfirst : Gathered keys rule bytes [s] ids ids')
    (hrest : Gathered keys rule bytes signatures ids' ids'') :
    Gathered keys rule bytes (s :: signatures) ids ids'' where
  mem keyid := by
    rw [hrest.mem, hfirst.mem, or_assoc]
    simp only [List.mem_cons, List.not_mem_nil, or_false, exists_eq_left, exists_eq_or_imp]
  nodup h := hrest.nodup (hfirst.nodup h)
  length := by
    have h₁ := hfirst.length
    have h₂ := hrest.length
    rw [List.length_cons, List.length_nil] at h₁
    rw [List.length_cons]
    omega

/-- An entry that does not count. -/
theorem Gathered.skip (h : ∀ keyid, ¬ Counts keys rule bytes keyid s) :
    Gathered keys rule bytes [s] ids ids where
  mem keyid := by
    simp only [List.mem_cons, List.not_mem_nil, or_false, exists_eq_left, h]
  nodup h := h
  length := Nat.le_add_right _ _

/-- An entry that counts for one key id. -/
theorem Gathered.insert {name : String}
    (h : ∀ keyid, Counts keys rule bytes keyid s ↔ keyid = name) :
    Gathered keys rule bytes [s] ids (if name ∈ ids then ids else ids ++ [name]) := by
  split
  · rename_i hmem
    refine ⟨fun keyid ↦ ?_, fun hnodup ↦ hnodup, Nat.le_add_right _ _⟩
    simp only [List.mem_cons, List.not_mem_nil, or_false, exists_eq_left, h]
    exact (or_iff_left_of_imp fun hkeyid ↦ hkeyid ▸ hmem).symm
  · rename_i hmem
    refine ⟨fun keyid ↦ ?_, fun hnodup ↦ ?_, ?_⟩
    · simp only [List.mem_append, List.mem_cons, List.not_mem_nil, or_false, exists_eq_left, h]
    · exact List.nodup_append.mpr ⟨hnodup, List.nodup_singleton _, fun x hx y hy heq ↦
        hmem (List.mem_singleton.mp hy ▸ heq ▸ hx)⟩
    · rw [List.length_append, List.length_singleton, List.length_singleton]

/-- The key id of an entry that counts is the one that it names. -/
theorem Counts.keyid_eq {keyid name : String} (h : Counts keys rule bytes keyid s)
    (hname : s.getItem "keyid" = .ok (.str name)) : keyid = name := by
  obtain ⟨-, key, -, hkeyid, -⟩ := h
  exact Json.str.inj (Except.ok.inj (hkeyid.symm.trans hname))

theorem not_counts {name sig : String} (hname : s.getItem "keyid" = .ok (.str name))
    (hsig : s.getItem "sig" = .ok (.str sig))
    (h : Listed rule name → ∀ key, HmacKey keys name key → hexDigest (hmacSha256 key bytes) ≠ sig)
    (keyid : String) : ¬ Counts keys rule bytes keyid s := by
  intro hcounts
  obtain rfl := hcounts.keyid_eq hname
  obtain ⟨hlisted, key, hkey, -, hsig'⟩ := hcounts
  exact h hlisted key hkey (Json.str.inj (Except.ok.inj (hsig'.symm.trans hsig)))

/-- A key id has at most one key. -/
theorem HmacKey.unique {keyid : String} {key key' : Bytes} (h : HmacKey keys keyid key)
    (h' : HmacKey keys keyid key') : key = key' := by
  obtain ⟨entry, text, hentry, -, htext, hkey⟩ := h
  obtain ⟨entry', text', hentry', -, htext', hkey'⟩ := h'
  obtain rfl := Except.ok.inj (hentry.symm.trans hentry')
  obtain rfl := Json.str.inj (Except.ok.inj (htext.symm.trans htext'))
  exact Except.ok.inj (hkey.symm.trans hkey')

/-- What the verifier makes of a listed key id: there is no key for HMAC-SHA256, or there is one. -/
theorem lookup_cases (hkeys : WellFormedKeys keys) (name : String) :
    ∃ entry, keys.getKey (.str name) = .ok entry ∧
      (entry = .null ∧ (∀ key, ¬ HmacKey keys name key) ∨
      ∃ algorithm, entry ≠ .null ∧ entry.getD "algorithm" .null = .ok algorithm ∧
        (algorithm ≠ .str "hmac-sha256" ∧ (∀ key, ¬ HmacKey keys name key) ∨
        ∃ text key, algorithm = .str "hmac-sha256" ∧ entry.getItem "key" = .ok (.str text) ∧
          fromHex text.toList = .ok key ∧ HmacKey keys name key)) := by
  obtain ⟨table, rfl, htable⟩ := hkeys
  refine ⟨(Json.lookup table name).getD .null, rfl, ?_⟩
  cases hentry : Json.lookup table name with
  | none =>
      refine Or.inl ⟨rfl, ?_⟩
      rintro key ⟨entry, _, hitem, -⟩
      rw [Json.getItem, hentry] at hitem
      cases hitem
  | some entry =>
      have hitem : (Json.dict table).getItem name = .ok entry := by rw [Json.getItem, hentry]
      rcases htable name entry hentry with rfl | ⟨fields, rfl, hfields⟩
      · refine Or.inl ⟨rfl, ?_⟩
        rintro key ⟨entry, _, hitem', halgorithm, -⟩
        obtain rfl := Except.ok.inj (hitem.symm.trans hitem')
        cases halgorithm
      · refine Or.inr ⟨_, Json.noConfusion, rfl, ?_⟩
        by_cases halgorithm : Json.lookup fields "algorithm" = some (.str "hmac-sha256")
        · obtain ⟨text, key, htext, hkey⟩ := hfields halgorithm
          have hkeyItem : (Json.dict fields).getItem "key" = .ok (.str text) := by
            rw [Json.getItem, htext]
          refine Or.inr ⟨text, key, ?_, hkeyItem, hkey, .dict fields, text, hitem, ?_, hkeyItem, hkey⟩
          · rw [halgorithm, Option.getD_some]
          · rw [Json.getItem, halgorithm]
        · refine Or.inl ⟨fun heq ↦ halgorithm ?_, ?_⟩
          · cases hlookup : Json.lookup fields "algorithm" with
            | none =>
                rw [hlookup] at heq
                cases heq
            | some value => rw [← heq, hlookup, Option.getD_some]
          · rintro key ⟨entry, _, hitem', hitem'', -⟩
            obtain rfl := Except.ok.inj (hitem.symm.trans hitem')
            rw [Json.getItem] at hitem''
            cases hlookup : Json.lookup fields "algorithm" with
            | none =>
                rw [hlookup] at hitem''
                cases hitem''
            | some value =>
                rw [hlookup] at hitem''
                exact halgorithm (hlookup.trans (congrArg some (Except.ok.inj hitem'')))

/-- A round of the loop over the signatures. -/
theorem gathered_countSignature (hkeyids : ∃ keyids, rule.getItem "keyids" = .ok keyids ∧
      ∀ keyid : String, ∃ b, keyids.contains (.str keyid) = .ok b)
    (hkeys : WellFormedKeys keys) (hs : WellFormedSignature s) (bytes : Bytes) (ids : List String) :
    ∃ ids', countSignature keys rule bytes ids s = .ok ids' ∧
      Gathered keys rule bytes [s] ids ids' := by
  obtain ⟨keyids, hkeyids, hcontains⟩ := hkeyids
  obtain ⟨name, sig, hname, hsig, hascii⟩ := hs
  obtain ⟨listed, hlisted⟩ := hcontains name
  obtain ⟨entry, hentry, hcases⟩ := lookup_cases hkeys name
  simp only [countSignature, bind_eq_ok, hname, hkeyids, hlisted, Except.ok.injEq, exists_eq_left']
  cases listed with
  | false =>
      refine ⟨ids, rfl, Gathered.skip (not_counts hname hsig ?_)⟩
      rintro ⟨keyids', hkeyids', hlisted'⟩
      obtain rfl := Except.ok.inj (hkeyids.symm.trans hkeyids')
      cases hlisted.symm.trans hlisted'
  | true =>
      simp only [Bool.not_true, Bool.false_eq_true, if_false, bind_eq_ok, hentry, Except.ok.injEq,
        exists_eq_left']
      rcases hcases with ⟨rfl, hnone⟩ | ⟨algorithm, hnull, halgorithm, hcases⟩
      · exact ⟨ids, rfl, Gathered.skip (not_counts hname hsig fun _ key hkey ↦ absurd hkey (hnone key))⟩
      split
      · exact absurd rfl hnull
      simp only [bind_eq_ok, halgorithm, Except.ok.injEq, exists_eq_left']
      rcases hcases with ⟨hother, hnone⟩ | ⟨text, key, rfl, htext, hkey, hhmac⟩
      · rw [if_pos (by rw [Bool.not_eq_true', Bool.eq_false_iff, ne_eq, eq_str]; exact hother)]
        exact ⟨ids, rfl, Gathered.skip (not_counts hname hsig fun _ key hkey ↦ absurd hkey (hnone key))⟩
      rw [if_neg (by simp [eq_str])]
      simp only [bind_eq_ok, htext, Json.bytesFromHex, hkey, hsig, compareDigest, hascii, if_true,
        Except.ok.injEq, exists_eq_left']
      by_cases heq : hexDigest (hmacSha256 key bytes) = sig
      · have hcounts : ∀ keyid, Counts keys rule bytes keyid s ↔ keyid = name := by
          refine fun keyid ↦ ⟨fun h ↦ h.keyid_eq hname, ?_⟩
          rintro rfl
          exact ⟨⟨keyids, hkeyids, hlisted⟩, key, hhmac, hname, heq ▸ hsig⟩
        rw [decide_eq_true heq, if_neg (by decide)]
        exact ⟨_, rfl, Gathered.insert hcounts⟩
      · rw [decide_eq_false heq, if_pos (by decide)]
        refine ⟨ids, rfl, Gathered.skip (not_counts hname hsig fun _ key' hkey' ↦ ?_)⟩
        rwa [hkey'.unique hhmac]

/-- The loop over the signatures. -/
theorem gathered_countSignatures (hkeyids : ∃ keyids, rule.getItem "keyids" = .ok keyids ∧
      ∀ keyid : String, ∃ b, keyids.contains (.str keyid) = .ok b)
    (hkeys : WellFormedKeys keys) (h : ∀ s ∈ signatures, WellFormedSignature s) (bytes : Bytes)
    (ids : List String) :
    ∃ ids', signatures.foldlM (countSignature keys rule bytes) ids = .ok ids' ∧
      Gathered keys rule bytes signatures ids ids' := by
  induction signatures generalizing ids with
  | nil => exact ⟨ids, rfl, Gathered.nil⟩
  | cons s signatures ih =>
      rw [List.forall_mem_cons] at h
      obtain ⟨between, hs, hfirst⟩ := gathered_countSignature hkeyids hkeys h.1 bytes ids
      obtain ⟨ids', hids, hrest⟩ := ih h.2 between
      refine ⟨ids', ?_, hfirst.cons hrest⟩
      rw [List.foldlM_cons, hs]
      exact hids

/-! ## The threshold -/

theorem le_length_iff_exists_card {P : String → Prop} (hnodup : ids.Nodup)
    (h : ∀ keyid, keyid ∈ ids ↔ P keyid) :
    threshold ≤ ids.length ↔ ∃ signers : Finset String, threshold ≤ signers.card ∧
      ∀ keyid ∈ signers, P keyid := by
  constructor
  · refine fun hle ↦ ⟨ids.toFinset, ?_, fun keyid hkeyid ↦ (h keyid).mp (List.mem_toFinset.mp hkeyid)⟩
    rwa [List.toFinset_card_of_nodup hnodup]
  · rintro ⟨signers, hle, hall⟩
    have hsubset : signers ⊆ ids.toFinset := fun keyid hkeyid ↦
      List.mem_toFinset.mpr ((h keyid).mpr (hall keyid hkeyid))
    have hcard := Finset.card_le_card hsubset
    rw [List.toFinset_card_of_nodup hnodup] at hcard
    exact hle.trans (Int.ofNat_le.mpr hcard)

/-- A document is accepted if and only if enough key ids signed it. -/
theorem verifySignatures_iff (hrule : AcceptedRule root roleName keys rule threshold)
    (hrole : Document role signed signatures) :
    verifySignatures role roleName keys rule = .ok () ↔
      ∃ signers : Finset String, threshold ≤ signers.card ∧ ∀ keyid ∈ signers,
        ∃ s ∈ signatures, Counts keys rule signed.canonicalBytes keyid s := by
  obtain ⟨ids, hids, hgathered⟩ := gathered_countSignatures hrule.exists_keyids hrule.wellFormed
    hrole.wellFormed signed.canonicalBytes []
  have hvalid : validKeyids role keys rule = .ok ids := by
    simp only [validKeyids, hrole.entries_eq, hrole.section_eq, Json.iter, bind, Except.bind]
    exact hids
  have hlength : ids.length ≤ signatures.length := by
    simpa using hgathered.length
  have hverify : verifySignatures role roleName keys rule = .ok () ↔ threshold ≤ ids.length := by
    simp only [verifySignatures, bind_eq_ok, hrole.entries_eq, hrule.integer, hvalid, Json.len,
      Json.intLt, Except.ok.injEq, exists_eq_left', raiseIf_eq_ok, decide_eq_true_eq, not_lt]
    constructor
    · rintro ⟨_, -, hle⟩
      exact hle
    · intro hle
      exact ⟨(), hle.trans (Int.ofNat_le.mpr hlength), hle⟩
  rw [hverify]
  refine le_length_iff_exists_card (hgathered.nodup List.nodup_nil) fun keyid ↦ ?_
  rw [hgathered.mem]
  exact or_iff_right List.not_mem_nil

/-- The signatures that count are the same: entries and key ids may be repeated, and entries and
key ids that do not count may be added. -/
def SameCounted (bytes : Bytes) (keys rule : Json) (signatures : List Json) (keys' rule' : Json)
    (signatures' : List Json) : Prop :=
  ∀ keyid s, s ∈ signatures' ∧ Counts keys' rule' bytes keyid s ↔
    s ∈ signatures ∧ Counts keys rule bytes keyid s

/-- Entries are repeated, or added where they do not count; key ids are listed again, or added where
they have not signed. -/
theorem SameCounted.of_padded {rule' : Json} {signatures' : List Json}
    (hkept : signatures ⊆ signatures')
    (hadded : ∀ s ∈ signatures', s ∈ signatures ∨ ∀ keyid, ¬ Counts keys rule bytes keyid s)
    (hlisted : ∀ keyid, Listed rule keyid → Listed rule' keyid)
    (hunused : ∀ keyid, Listed rule' keyid →
      Listed rule keyid ∨ ∀ s ∈ signatures', ¬ SignedBy keys bytes keyid s) :
    SameCounted bytes keys rule signatures keys rule' signatures' := by
  intro keyid s
  constructor
  · rintro ⟨hs, hlisted', hsigned⟩
    have hcounts : Counts keys rule bytes keyid s :=
      ⟨(hunused keyid hlisted').resolve_right fun h ↦ h s hs hsigned, hsigned⟩
    exact ⟨(hadded s hs).resolve_right fun h ↦ h keyid hcounts, hcounts⟩
  · rintro ⟨hs, hcounts⟩
    exact ⟨hkept hs, hlisted keyid hcounts.1, hcounts.2⟩

/-- The threshold counts distinct keys, however often they are listed or sign. -/
theorem verifySignatures_counts_keys (hrule : AcceptedRule root roleName keys rule threshold)
    (hrole : Document role signed signatures) :
    (verifySignatures role roleName keys rule = .ok () ↔
      ∃ signers : Finset String, threshold ≤ signers.card ∧ ∀ keyid ∈ signers,
        Listed rule keyid ∧ ∃ s ∈ signatures, SignedBy keys signed.canonicalBytes keyid s) ∧
    ∀ root' role' keys' rule' signatures', AcceptedRule root' roleName keys' rule' threshold →
      Document role' signed signatures' →
      SameCounted signed.canonicalBytes keys rule signatures keys' rule' signatures' →
      (verifySignatures role' roleName keys' rule' = .ok () ↔
        verifySignatures role roleName keys rule = .ok ()) := by
  constructor
  · rw [verifySignatures_iff hrule hrole]
    have hcounts : ∀ keyid, (∃ s ∈ signatures, Counts keys rule signed.canonicalBytes keyid s) ↔
        Listed rule keyid ∧ ∃ s ∈ signatures, SignedBy keys signed.canonicalBytes keyid s := by
      intro keyid
      constructor
      · rintro ⟨s, hs, hlisted, hsigned⟩
        exact ⟨hlisted, s, hs, hsigned⟩
      · rintro ⟨hlisted, s, hs, hsigned⟩
        exact ⟨s, hs, hlisted, hsigned⟩
    simp only [hcounts]
  · intro root' role' keys' rule' signatures' hrule' hrole' hsame
    rw [verifySignatures_iff hrule hrole, verifySignatures_iff hrule' hrole']
    simp only [hsame _ _]

/-! A rule that asks for both of two keys. -/

def hmacEntry (key : Bytes) : Json :=
  .dict [("algorithm", .str "hmac-sha256"), ("key", .str (hexDigest key))]

def bothKeys : Json := .dict [("first", hmacEntry [0x11]), ("second", hmacEntry [0x22])]

def bothRule : Json :=
  .dict [("keyids", .list [.str "first", .str "second"]), ("threshold", .int 2)]

def bothRoot : Json :=
  .dict [("keys", bothKeys), ("roles", .dict (requiredRoles.map fun roleName ↦ (roleName, bothRule)))]

theorem acceptedRule_both : AcceptedRule bothRoot "targets" bothKeys bothRule 2 := by
  refine ⟨rfl, by decide, rfl, ⟨_, rfl, rfl⟩, rfl, _, rfl, fun keyid entry hentry ↦ Or.inr ?_⟩
  have hfields : ∃ key, entry = hmacEntry key := by
    obtain ⟨e, he, rfl⟩ := Option.map_eq_some_iff.mp hentry
    have hmem := List.mem_of_find?_eq_some he
    simp only [List.mem_cons, List.not_mem_nil, or_false] at hmem
    rcases hmem with rfl | rfl
    · exact ⟨[0x11], rfl⟩
    · exact ⟨[0x22], rfl⟩
  obtain ⟨key, rfl⟩ := hfields
  exact ⟨_, rfl, fun _ ↦ ⟨hexDigest key, key, rfl, fromHex_hexDigest key⟩⟩

def signedDemo (signatures : List Json) : Json :=
  .dict [("signatures", .list signatures), ("signed", .dict [])]

def firstSignature : Json := signature "first" [0x11] (.dict [])

def secondSignature : Json := signature "second" [0x22] (.dict [])

def otherSignature : Json := .dict [("keyid", .str "other"), ("sig", .str "00")]

theorem document_signedDemo
    (h : ∀ s ∈ signatures, s ∈ [otherSignature, firstSignature, secondSignature]) :
    Document (signedDemo signatures) (.dict []) signatures := by
  refine ⟨rfl, rfl, fun s hs ↦ ?_⟩
  have hmem := h s hs
  simp only [List.mem_cons, List.not_mem_nil, or_false] at hmem
  rcases hmem with rfl | rfl | rfl
  · exact ⟨"other", "00", rfl, rfl, by decide⟩
  · exact ⟨"first", _, rfl, rfl, hexDigest_ascii _⟩
  · exact ⟨"second", _, rfl, rfl, hexDigest_ascii _⟩

theorem not_listed_other : ¬ Listed bothRule "other" := by
  rintro ⟨keyids, hkeyids, hcontains⟩
  obtain rfl := Except.ok.inj hkeyids
  simp [Json.contains, Json.eq] at hcontains

/-- Both keys have to sign: a signature may be repeated next to an entry of another key id, but does
not count twice. -/
theorem verifySignatures_counts_keys_both :
    verifySignatures (signedDemo [otherSignature, firstSignature, firstSignature, secondSignature])
      "targets" bothKeys bothRule = .ok () ∧
    verifySignatures (signedDemo [firstSignature, firstSignature]) "targets" bothKeys bothRule ≠
      .ok () := by
  constructor
  · have hsigned := @document_signedDemo [firstSignature, secondSignature] (by simp)
    have hpadded := @document_signedDemo [otherSignature, firstSignature, firstSignature,
      secondSignature] (by simp)
    obtain ⟨hcount, hsame⟩ := verifySignatures_counts_keys acceptedRule_both hsigned
    refine (hsame _ _ _ _ _ acceptedRule_both hpadded (SameCounted.of_padded (by simp) ?_
      (fun _ h ↦ h) fun _ h ↦ Or.inl h)).mpr
        (hcount.mpr ⟨{"first", "second"}, by simp, fun keyid hkeyid ↦ ?_⟩)
    · intro s hs
      simp only [List.mem_cons, List.not_mem_nil, or_false] at hs
      rcases hs with rfl | rfl | rfl | rfl
      · exact Or.inr fun keyid hcounts ↦ not_listed_other (hcounts.keyid_eq rfl ▸ hcounts.1)
      · exact Or.inl (by simp)
      · exact Or.inl (by simp)
      · exact Or.inl (by simp)
    · simp only [Finset.mem_insert, Finset.mem_singleton] at hkeyid
      rcases hkeyid with rfl | rfl
      · exact ⟨⟨_, rfl, by simp [Json.contains, Json.eq]⟩, firstSignature, by simp, [0x11],
          ⟨_, hexDigest [0x11], rfl, rfl, rfl, fromHex_hexDigest _⟩, rfl, rfl⟩
      · exact ⟨⟨_, rfl, by simp [Json.contains, Json.eq]⟩, secondSignature, by simp, [0x22],
          ⟨_, hexDigest [0x22], rfl, rfl, rfl, fromHex_hexDigest _⟩, rfl, rfl⟩
  · intro haccepted
    have hsigned := @document_signedDemo [firstSignature, firstSignature] (by simp)
    obtain ⟨signers, hle, hall⟩ :=
      (verifySignatures_counts_keys acceptedRule_both hsigned).1.mp haccepted
    have hsubset : signers ⊆ {"first"} := by
      intro keyid hkeyid
      obtain ⟨hlisted, s, hs, hsignedBy⟩ := hall keyid hkeyid
      have hfirst : s = firstSignature := by simpa using hs
      subst hfirst
      have hcounts : Counts bothKeys bothRule (Json.dict []).canonicalBytes keyid firstSignature :=
        ⟨hlisted, hsignedBy⟩
      exact Finset.mem_singleton.mpr (hcounts.keyid_eq rfl)
    have hcard := Finset.card_le_card hsubset
    rw [Finset.card_singleton] at hcard
    omega

end VehicleOta.Tcu.UptaneVerifier
