import VehicleOta.Uds.DoipSafety
import VehicleOta.Uds.Grants

/-!
# Several testers at one ECU

`handle_client` runs a thread for each connection, and the threads share the `ECUContext`, which
does not know who sent a request.
-/

namespace VehicleOta.Uds.ECUContext

open ProgrammingServer TraceLogic

/-! ## Sessions and their testers -/

section Ownership

variable {τ : Type*} {tester other : τ} {trace more : List (τ × Exchange)}

/-- The tester opened the current session. -/
def OpenedBy (tester : τ) : List (τ × Exchange) → Prop :=
  Since (fun e ↦ e.2.Quiet) fun _ e ↦ e.1 = tester ∧ e.2.SessionControl ∧ ¬ e.2.Expired

/-- One tester opened the current session, and the key accepted last in it was another's. -/
def KeyedBy (opener tester : τ) : List (τ × Exchange) → Prop :=
  Since (fun e ↦ e.2.Quiet ∧ ¬ e.2.KeyAccepted) fun past e ↦
    e.1 = tester ∧ e.2.KeyAccepted ∧ e.2.Quiet ∧ OpenedBy opener past

/-- The tester opened the current session, and the key accepted last in it was the tester's. -/
def UnlockedBy (tester : τ) : List (τ × Exchange) → Prop := KeyedBy tester tester

/-- The tester sent the last `DiagnosticSessionControl`. -/
def LastOpening (tester : τ) : List (τ × Exchange) → Prop :=
  Since (fun e ↦ ¬ e.2.SessionControl) fun _ e ↦ e.1 = tester ∧ e.2.SessionControl

/-- The key accepted last was the tester's. -/
def LastKey (tester : τ) : List (τ × Exchange) → Prop :=
  Since (fun e ↦ ¬ e.2.KeyAccepted) fun _ e ↦ e.1 = tester ∧ e.2.KeyAccepted

theorem KeyedBy.opened (h : KeyedBy other tester trace) : OpenedBy other trace := by
  obtain ⟨past, e, rest, rfl, ⟨-, -, hquiet, hopened⟩, hrest⟩ := h
  refine hopened.append fun x hx ↦ ?_
  rcases List.mem_cons.mp hx with rfl | hx
  · exact hquiet
  · exact (hrest x hx).1

theorem OpenedBy.lastOpening (h : OpenedBy tester trace) : LastOpening tester trace :=
  h.mono (fun _ hquiet ↦ hquiet.1) fun _ _ hmark ↦ ⟨hmark.1, hmark.2.1⟩

theorem KeyedBy.lastKey (h : KeyedBy other tester trace) : LastKey tester trace :=
  h.mono (fun _ hkeep ↦ hkeep.2) fun _ _ hmark ↦ ⟨hmark.1, hmark.2.1⟩

/-- An event that nothing like it follows has one sender. -/
theorem eq_of_last {p : Exchange → Prop}
    (h : Since (fun e ↦ ¬ p e.2) (fun _ e ↦ e.1 = tester ∧ p e.2) trace)
    (h' : Since (fun e ↦ ¬ p e.2) (fun _ e ↦ e.1 = other ∧ p e.2) trace) : tester = other := by
  obtain ⟨x, ⟨hx, -⟩, ⟨hx', -⟩⟩ :=
    h.meet h' (fun x hx hkeep ↦ hkeep hx.2) fun x hx hkeep ↦ hkeep hx.2
  exact hx.symm.trans hx'

theorem OpenedBy.unique (h : OpenedBy tester trace) (h' : OpenedBy other trace) :
    tester = other :=
  eq_of_last h.lastOpening h'.lastOpening

/-- The data of the blocks that a tester sent. -/
def blocksOf [DecidableEq τ] (tester : τ) (trace : List (τ × Exchange)) : Bytes :=
  trace.flatMap fun e ↦
    if e.1 = tester ∧ e.2.request.head? = some sidTransferData then e.2.request.drop 2 else []

/-- A download of one tester: requested successfully, neither given up nor started again since by
the tester, and every block answered positively, the last one just now. -/
structure Downloading (tester : τ) (download : Exchange) (rest : List (τ × Exchange)) : Prop where
  requested : download.DownloadRequested
  undivided : ∀ e ∈ rest, e.1 = tester →
    ¬ e.2.SessionControl ∧ ¬ e.2.Erased ∧ ¬ e.2.DownloadRequested
  answered : ∀ e ∈ rest, e.1 = tester → e.2.request.head? = some sidTransferData →
    e.2.Accepted sidTransferData
  last : ∃ front block, rest = front ++ [(tester, block)] ∧ block.Accepted sidTransferData

/-- Whoever is answered behind a download in a session of its own opened that session in front of the
download, and nothing has ended it since. -/
theorem Downloading.opened {download block : Exchange} {past front : List (τ × Exchange)}
    (h : Downloading tester download (front ++ [(tester, block)]))
    (hopened : OpenedBy tester (past ++ (tester, download) :: front)) :
    OpenedBy tester (past ++ [(tester, download)]) ∧ ∀ e ∈ front, e.2.Quiet := by
  have hcontrol : ∀ x ∈ (tester, download) :: front, x.1 = tester → ¬ x.2.SessionControl := by
    intro x hx hmine
    rcases List.mem_cons.mp hx with rfl | hx
    · exact fun hcontrol ↦ absurd (h.requested.1.symm.trans hcontrol.1) (by decide)
    · exact (h.undivided x (List.mem_append_left _ hx) hmine).1
  obtain ⟨hbefore, hquiet⟩ := hopened.of_append
    fun past x hx hmark ↦ hcontrol x hx hmark.1 hmark.2.1
  exact ⟨hbefore.concat (hquiet _ List.mem_cons_self),
    fun e he ↦ hquiet e (List.mem_cons_of_mem _ he)⟩

end Ownership

/-! ## The server and its testers -/

section Testers

variable {τ : Type*} {blockLength : ℕ} {ecu : ECUContext} {messages : List (τ × Request)}

/-- A request and the connection that it came in on. -/
def serveTester (blockLength : ℕ) (ecu : ECUContext) (message : τ × Request) :
    ECUContext × τ × Exchange :=
  let answered := step (handle blockLength) ecu message.2
  (answered.1, message.1, answered.2)

/-- The server does not look at the tester. -/
theorem run_serveTester (blockLength : ℕ) (ecu : ECUContext) (messages : List (τ × Request)) :
    (run (serveTester blockLength) ecu messages).1 =
        (run (step (handle blockLength)) ecu (messages.map Prod.snd)).1 ∧
      (run (serveTester blockLength) ecu messages).2.map Prod.snd =
        (run (step (handle blockLength)) ecu (messages.map Prod.snd)).2 := by
  induction messages using List.reverseRecOn with
  | nil => exact ⟨rfl, rfl⟩
  | append_singleton messages m ih =>
      rw [List.map_append, List.map_singleton, run_concat, run_concat, List.map_append, ih.2, ← ih.1]
      exact ⟨rfl, rfl⟩

theorem testers_run (blockLength : ℕ) (ecu : ECUContext) (messages : List (τ × Request)) :
    (run (serveTester blockLength) ecu messages).2.map Prod.fst = messages.map Prod.fst := by
  induction messages using List.reverseRecOn with
  | nil => rfl
  | append_singleton messages m ih =>
      rw [run_concat, List.map_append, List.map_append, ih]
      rfl

/-- A request that the checks of its service let pass comes from the tester of the last opening
and of the key accepted last. -/
def OwnerOnly (ecu : ECUContext) (trace : List (τ × Exchange)) (message : τ × Request) : Prop :=
  ∀ serviceId ∈ unlockedServices, message.2.payload.head? = some serviceId →
    Grants message.2 ecu.base serviceId →
      ∀ other, LastOpening other trace ∨ LastKey other trace → other = message.1

/-- What needs an unlocked session is answered positively to its owner only. -/
def ServesOwner (blockLength : ℕ) (ecu : ECUContext) (trace : List (τ × Exchange))
    (message : τ × Request) : Prop :=
  ∀ serviceId ∈ unlockedServices,
    (serveTester blockLength ecu message).2.2.Accepted serviceId → UnlockedBy message.1 trace

/-- The testers keep apart: every answer is one that `ServesOwner` allows, and a download puts nothing
but the blocks of its tester into the buffer. -/
structure Separated [DecidableEq τ] (blockLength : ℕ) (ecu : ECUContext)
    (messages : List (τ × Request)) : Prop where
  granted : Admissible (serveTester blockLength) (ServesOwner blockLength) ecu messages
  downloads : ∀ before tester r more after, messages = before ++ (tester, r) :: (more ++ after) →
    ∀ download rest ecu',
      serveTester blockLength (run (serveTester blockLength) ecu before).1 (tester, r) =
        (ecu', tester, download) →
      (run (serveTester blockLength) ecu' more).2 = rest → Downloading tester download rest →
        (run (serveTester blockLength) ecu' more).1.base.receiver.buffer =
          (blocksOf tester rest).take download.requestedSize

end Testers

/-! ## The buffer of a quiet session -/

section Filled

variable {blockLength size : ℕ} {ecu t : ECUContext} {data block : Bytes} {r : Request}

/-- The buffer holds the expected part of the data. -/
structure Filled (size : ℕ) (data : Bytes) (ecu : ECUContext) : Prop where
  expected : ecu.base.expectedSize = size
  received : ecu.base.receivedSize = ecu.base.receiver.buffer.length
  buffer : ecu.base.receiver.buffer = data.take size

theorem Filled.receives (h : Filled size data ecu) (hr : Receives ecu t block) :
    Filled size (data ++ block) t := by
  have hchunk : (ProgrammingServer.base ecu).chunk block =
      block.take (size - (data.take size).length) := by
    rw [← h.buffer, ← h.received, ← h.expected]
    rfl
  have hbuffer : t.base.receiver.buffer =
      ecu.base.receiver.buffer ++ block.take (size - (data.take size).length) := hchunk ▸ hr.buffer
  have hreceived : t.base.receivedSize =
      ecu.base.receivedSize + (block.take (size - (data.take size).length)).length :=
    hchunk ▸ hr.receivedSize
  refine ⟨hr.expectedSize.trans h.expected, ?_, ?_⟩
  · rw [hreceived, hbuffer, List.length_append, h.received]
  · rw [hbuffer, h.buffer, take_append_chunk]

theorem filled_beginDownload
    (h : (exchange r (handle blockLength r ecu)).DownloadRequested) :
    Filled (intFromBytes (lastBytes r.payload 4)) [] (handle blockLength r ecu).state := by
  obtain ⟨-, hbase⟩ := handle_downloadRequested h
  have hbase : (handle blockLength r ecu).state.base =
      (ecu.base.touchSession r.touchClock).beginDownload (intFromBytes (lastBytes r.payload 4)) :=
    hbase
  constructor
  · rw [hbase]
    rfl
  · rw [hbase]
    rfl
  · rw [hbase, List.take_nil]
    rfl

/-- An exchange that leaves the session and the download in progress as they are. -/
def Continues (x : Exchange) : Prop := x.Quiet ∧ ¬ x.Erased ∧ ¬ x.DownloadRequested

/-- Nothing but accepted blocks reaches the buffer until the download is over. -/
theorem filled_run (h : Filled size [] ecu) (requests : List Request)
    (hcontinues : ∀ x ∈ (run (step (handle blockLength)) ecu requests).2, Continues x)
    (hsession : (run (step (handle blockLength)) ecu requests).1.base.currentSession =
      defaultSessionProgramming) :
    Filled size (transferred (run (step (handle blockLength)) ecu requests).2)
      (run (step (handle blockLength)) ecu requests).1 := by
  induction requests using List.reverseRecOn with
  | nil => exact h
  | append_singleton requests r ih =>
      rw [run_concat] at hcontinues hsession ⊢
      generalize run (step (handle blockLength)) ecu requests = before at ih hcontinues hsession ⊢
      obtain ⟨hquiet, herased, hrequested⟩ :=
        hcontinues (step (handle blockLength) before.1 r).2 (by simp)
      obtain ⟨hexplained, hundisturbed⟩ := explained_handle blockLength r before.1
      have hbefore : before.1.base.currentSession = defaultSessionProgramming := by
        rcases hexplained.session hsession with ⟨hcontrol, -⟩ | ⟨-, hs⟩
        · exact absurd hcontrol hquiet.1
        · exact hs
      have hfilled := ih (fun x hx ↦ hcontinues x (by simp [hx])) hbefore
      have hdata : transferred (before.2 ++ [(step (handle blockLength) before.1 r).2]) =
          transferred before.2 ++ (step (handle blockLength) before.1 r).2.blockData := by
        simp [transferred]
      rw [hdata]
      exact hfilled.receives (hundisturbed hquiet herased hrequested hsession)

end Filled

/-! ## Owners -/

section Owners

variable {τ : Type*} {blockLength : ℕ} {ecu : ECUContext} {tester : τ}
  {messages before more : List (τ × Request)}

/-- Behind the flags of the session stand an opening and a key, each of some tester. -/
structure Attributed (ecu : ECUContext) (trace : List (τ × Exchange)) : Prop where
  opened : ecu.base.currentSession = defaultSessionProgramming → ∃ opener, OpenedBy opener trace
  keyed : ecu.base.securityUnlocked → ∃ opener tester, KeyedBy opener tester trace

theorem Attributed.step {trace : List (τ × Exchange)} (h : Attributed ecu trace)
    (message : τ × Request) :
    Attributed (serveTester blockLength ecu message).1
      (trace ++ [(serveTester blockLength ecu message).2]) := by
  have hexplained := (explained_handle blockLength message.2 ecu).1
  constructor
  · intro hsession
    rcases hexplained.session hsession with hcontrol | ⟨hquiet, hsession⟩
    · exact ⟨message.1, since_of_mark ⟨rfl, hcontrol⟩⟩
    · obtain ⟨opener, hopened⟩ := h.opened hsession
      exact ⟨opener, hopened.concat hquiet⟩
  · intro hunlocked
    obtain ⟨hquiet, hbefore⟩ := hexplained.unlocked hunlocked
    by_cases hkey : (serveTester blockLength ecu message).2.2.KeyAccepted
    · -- a key, whether the session was locked or not
      have hopened : ∃ opener, OpenedBy opener trace := by
        rcases hbefore with hunlocked | ⟨-, hsession⟩
        · obtain ⟨opener, tester, hkeyed⟩ := h.keyed hunlocked
          exact ⟨opener, hkeyed.opened⟩
        · exact h.opened hsession
      obtain ⟨opener, hopened⟩ := hopened
      exact ⟨opener, message.1, since_of_mark ⟨rfl, hkey, hquiet, hopened⟩⟩
    · obtain ⟨opener, tester, hkeyed⟩ := h.keyed (hbefore.resolve_right fun hmark ↦ hkey hmark.1)
      exact ⟨opener, tester, hkeyed.concat ⟨hquiet, hkey⟩⟩

theorem attributed_run (blockLength : ℕ) (key : String) (address : ℕ) (profile : Profile)
    (messages : List (τ × Request)) :
    Attributed (run (serveTester blockLength) (initial key address profile) messages).1
      (run (serveTester blockLength) (initial key address profile) messages).2 := by
  apply run_invariant (A := fun _ _ _ ↦ True)
  · refine ⟨fun h ↦ absurd h ?_, fun h ↦ absurd h Bool.false_ne_true⟩
    exact (by decide : (0x00 : UInt8) ≠ defaultSessionProgramming)
  · intro ecu trace message h _
    exact h.step message
  · exact admissible_of_forall (fun _ _ _ ↦ trivial) _ _

theorem Grants.unlocked {r : Request} {b : ProgrammingState} {serviceId : UInt8}
    (h : Grants r b serviceId) (hservice : serviceId ∈ unlockedServices) : b.securityUnlocked := by
  obtain ⟨-, -, hrefused, -⟩ := h
  by_contra hlocked
  have hlocked : b.securityUnlocked = false := Bool.eq_false_of_not_eq_true hlocked
  apply hrefused
  simp only [unlockedServices, List.mem_cons, List.not_mem_nil, or_false] at hservice
  rcases hservice with rfl | rfl | rfl | rfl
  · exact Or.inr (Or.inl hlocked)
  · exact Or.inl hlocked
  · exact Or.inr (Or.inl hlocked)
  · exact Or.inl hlocked

/-- Where a session has an opener and a key, its owner alone is served exactly if nobody else
sends a request that passes. -/
theorem servesOwner_iff {message : τ × Request} {trace : List (τ × Exchange)}
    (h : Attributed ecu trace) :
    ServesOwner blockLength ecu trace message ↔ OwnerOnly ecu trace message := by
  constructor
  · intro hserved serviceId hservice hhead hgrants other hlast
    have hunlocked : UnlockedBy message.1 trace :=
      hserved serviceId hservice ((accepted_iff_grants hhead hservice).mpr hgrants)
    rcases hlast with hopening | hkey
    · exact eq_of_last hopening hunlocked.opened.lastOpening
    · exact eq_of_last hkey hunlocked.lastKey
  · intro howner serviceId hservice haccepted
    have hgrants : Grants message.2 ecu.base serviceId :=
      (accepted_iff_grants haccepted.1 hservice).mp haccepted
    obtain ⟨opener, tester, hkeyed⟩ := h.keyed (hgrants.unlocked hservice)
    have hlast := howner serviceId hservice haccepted.1 hgrants
    obtain rfl := hlast tester (Or.inr hkeyed.lastKey)
    obtain rfl := hlast opener (Or.inl hkeyed.opened.lastOpening)
    exact hkeyed

/-- An accepted block goes on with the download, in a programming session. -/
theorem continues_of_block {r : Request}
    (h : (exchange r (handle blockLength r ecu)).Accepted sidTransferData) :
    Continues (exchange r (handle blockLength r ecu)) ∧
      ecu.base.currentSession = defaultSessionProgramming ∧
      (handle blockLength r ecu).state.base.currentSession = defaultSessionProgramming := by
  have hhead : r.payload.head? = some sidTransferData := h.1
  obtain ⟨hunexpired, hsession, -⟩ := (accepted_iff_grants hhead (by decide)).mp h
  have hserve : handle blockLength r ecu = transferData r ecu := handle_of_head hhead
  have heq : transferData r ecu = _ :=
    requireProgrammingSession_of_programming (s := ecu) _ hunexpired hsession
  have hkept : ¬ (exchange r (transferData r ecu)).Expired ∧
      (transferData r ecu).state.base.currentSession = ecu.base.currentSession := by
    rw [heq]
    split_ifs
    · exact ⟨by simp [exchange, Exchange.Expired, negative, reply], rfl⟩
    · unfold receiveBlock
      dsimp only
      split_ifs
      · exact ⟨by simp [exchange, Exchange.Expired, negative, reply], rfl⟩
      · exact ⟨by simp [exchange, Exchange.Expired, negative, reply], rfl⟩
      · exact ⟨by simp [exchange, Exchange.Expired, reply], rfl⟩
    · exact ⟨by simp [exchange, Exchange.Expired, negative, reply], rfl⟩
  rw [hserve]
  refine ⟨⟨⟨?_, hkept.1⟩, fun herased ↦ ?_, ?_⟩, hsession, hkept.2.trans hsession⟩
  · exact not_accepted_of_head hhead (by decide)
  · exact not_accepted_of_head hhead (by decide) herased.1
  · exact not_accepted_of_head hhead (by decide)

/-- Where owners alone are served, a session that the tester opened serves nobody else. -/
theorem owner_of_accepted
    (hadmissible : Admissible (serveTester blockLength) (ServesOwner blockLength) ecu (before ++ more))
    (hopened : OpenedBy tester (run (serveTester blockLength) ecu before).2)
    (hquiet : ∀ e ∈ (run (serveTester blockLength)
      (run (serveTester blockLength) ecu before).1 more).2, e.2.Quiet)
    {e : τ × Exchange}
    (he : e ∈ (run (serveTester blockLength) (run (serveTester blockLength) ecu before).1 more).2)
    {serviceId : UInt8} (hservice : serviceId ∈ unlockedServices)
    (haccepted : e.2.Accepted serviceId) : e.1 = tester := by
  obtain ⟨front, message, after, rfl, rfl⟩ := exists_of_mem_run he
  have howner := hadmissible (before ++ front) message after (by simp)
  rw [run_append] at howner
  have hunlocked := howner serviceId hservice haccepted
  refine hunlocked.opened.unique (hopened.append fun x hx ↦ hquiet x ?_)
  rw [run_append]
  exact List.mem_append_left _ hx

/-- Where every accepted block is the tester's, the data transferred are the tester's blocks. -/
theorem transferred_eq_blocksOf [DecidableEq τ] {rest : List (τ × Exchange)}
    (howner : ∀ e ∈ rest, e.2.Accepted sidTransferData → e.1 = tester)
    (hanswered : ∀ e ∈ rest, e.1 = tester → e.2.request.head? = some sidTransferData →
      e.2.Accepted sidTransferData) :
    transferred (rest.map Prod.snd) = blocksOf tester rest := by
  rw [transferred, List.flatMap_map, blocksOf]
  refine List.flatMap_congr fun e he ↦ ?_
  rw [Exchange.blockData]
  by_cases haccepted : e.2.Accepted sidTransferData
  · rw [if_pos haccepted, if_pos ⟨howner e he haccepted, haccepted.1⟩]
  · rw [if_neg haccepted, if_neg]
    rintro ⟨htester, hhead⟩
    exact haccepted (hanswered e he htester hhead)

/-- Where the session serves the tester alone, nobody gives up or restarts its download. -/
theorem Downloading.continues {download : Exchange} {rest : List (τ × Exchange)}
    (h : Downloading tester download rest) (hquiet : ∀ e ∈ rest, e.2.Quiet)
    (hserved : ∀ e ∈ rest, ∀ serviceId ∈ unlockedServices,
      e.2.Accepted serviceId → e.1 = tester) :
    ∀ x ∈ rest.map Prod.snd, Continues x := by
  intro x hx
  obtain ⟨e, he, rfl⟩ := List.mem_map.mp hx
  refine ⟨hquiet e he, fun herased ↦ ?_, fun hrequested ↦ ?_⟩
  · exact (h.undivided e he (hserved e he _ (by decide) herased.1)).2.1 herased
  · exact (h.undivided e he (hserved e he _ (by decide) hrequested)).2.2 hrequested

/-- In a run that serves owners alone, a download fills the buffer with the blocks of its tester. -/
theorem buffer_of_downloading [DecidableEq τ] {r : Request} {after : List (τ × Request)}
    (hadmissible : Admissible (serveTester blockLength) (ServesOwner blockLength) ecu
      (before ++ (tester, r) :: (more ++ after)))
    {download : Exchange} {rest : List (τ × Exchange)} {ecu' : ECUContext}
    (hdownload : serveTester blockLength (run (serveTester blockLength) ecu before).1 (tester, r) =
      (ecu', tester, download))
    (hrest : (run (serveTester blockLength) ecu' more).2 = rest)
    (h : Downloading tester download rest) :
    (run (serveTester blockLength) ecu' more).1.base.receiver.buffer =
      (blocksOf tester rest).take download.requestedSize := by
  obtain ⟨front, block, rfl, hblock⟩ := h.last
  rcases List.eq_nil_or_concat more with rfl | ⟨init, message, rfl⟩
  · exact absurd hrest (by simp)
  rw [List.concat_eq_append] at hadmissible hrest ⊢
  have hlast := hrest
  rw [run_concat] at hlast
  obtain ⟨hinit, hmessage⟩ := List.append_inj' hlast rfl
  have hmessage := List.singleton_inj.mp hmessage
  have hstart : run (serveTester blockLength) ecu (before ++ [(tester, r)]) =
      (ecu', (run (serveTester blockLength) ecu before).2 ++ [(tester, download)]) := by
    rw [run_concat, hdownload]
  have hstate : run (serveTester blockLength) ecu (before ++ [(tester, r)] ++ init) =
      ((run (serveTester blockLength) ecu' init).1,
        (run (serveTester blockLength) ecu before).2 ++ (tester, download) :: front) := by
    rw [run_append, hstart, hinit, List.append_assoc]
    rfl
  -- the tester who sent the last block opened the session, and did so before the download
  have haccepted : (serveTester blockLength (run (serveTester blockLength) ecu' init).1
      message).2.2.Accepted sidTransferData := by
    rw [hmessage]
    exact hblock
  obtain ⟨hcontinues, -, hsession⟩ := continues_of_block haccepted
  have howner := hadmissible (before ++ [(tester, r)] ++ init) message after (by simp)
  rw [hstate] at howner
  have hunlocked := howner _ (by decide) haccepted
  obtain rfl : message.1 = tester := congrArg Prod.fst hmessage
  obtain ⟨hopened, hfront⟩ := h.opened hunlocked.opened
  have hopened : OpenedBy message.1
      (run (serveTester blockLength) ecu (before ++ [(message.1, r)])).2 := by
    rw [hstart]
    exact hopened
  -- so everything that the session serves is this tester's
  have hquiet : ∀ e ∈ front ++ [(message.1, block)], e.2.Quiet := by
    intro e he
    rcases List.mem_append.mp he with he | he
    · exact hfront e he
    · rw [List.mem_singleton.mp he, ← hmessage]
      exact hcontinues.1
  have hserved : ∀ e ∈ front ++ [(message.1, block)], ∀ serviceId ∈ unlockedServices,
      e.2.Accepted serviceId → e.1 = message.1 := by
    intro e he serviceId hservice
    have hprefix : Admissible (serveTester blockLength) (ServesOwner blockLength) ecu
        (before ++ [(message.1, r)] ++ (init ++ [message]) ++ after) := by
      simpa using hadmissible
    apply owner_of_accepted hprefix.of_append hopened _ _ hservice
    · rw [hstart, hrest]
      exact hquiet
    · rw [hstart, hrest]
      exact he
  obtain ⟨hrun, htrace⟩ := run_serveTester blockLength ecu' (init ++ [message])
  rw [hrest] at htrace
  have hfirst : ecu' = (handle blockLength r
      (run (serveTester blockLength) ecu before).1).state ∧
      download = exchange r (handle blockLength r (run (serveTester blockLength) ecu before).1) :=
    ⟨(congrArg Prod.fst hdownload).symm, (congrArg (fun e ↦ e.2.2) hdownload).symm⟩
  obtain ⟨hecu, rfl⟩ := hfirst
  have hfilled := @filled_run blockLength _ ecu' (hecu ▸ filled_beginDownload h.requested)
    ((init ++ [message]).map Prod.snd) (htrace ▸ h.continues hquiet hserved) (by
      rw [← hrun, run_concat]
      exact hsession)
  rw [← htrace, transferred_eq_blocksOf (fun e he ↦ hserved e he _ (by decide)) h.answered,
    ← hrun] at hfilled
  exact hfilled.buffer

end Owners

/-! ## Keeping testers apart -/

theorem separated_of_servesOwner {τ : Type*} [DecidableEq τ] {blockLength : ℕ} {ecu : ECUContext}
    {messages : List (τ × Request)}
    (h : Admissible (serveTester blockLength) (ServesOwner blockLength) ecu messages) :
    Separated blockLength ecu messages where
  granted := h
  downloads before tester r more after heq download rest ecu' hdownload hrest hdownloading := by
    rw [heq] at h
    exact buffer_of_downloading h hdownload hrest hdownloading

/-- From a fresh context on, testers keep apart in exactly the runs in which every request that
the checks of an unlocked session let pass comes from the tester of the last opening and of the key
accepted last. -/
theorem separated_iff {τ : Type*} [DecidableEq τ] (blockLength : ℕ) (key : String) (address : ℕ)
    (profile : Profile) (messages : List (τ × Request)) :
    Separated blockLength (initial key address profile) messages ↔
      Admissible (serveTester blockLength) OwnerOnly (initial key address profile) messages := by
  constructor
  · intro hseparated before message after heq
    exact (servesOwner_iff (attributed_run blockLength key address profile before)).mp
      (hseparated.granted before message after heq)
  · intro hadmissible
    apply separated_of_servesOwner
    intro before message after heq
    exact (servesOwner_iff (attributed_run blockLength key address profile before)).mpr
      (hadmissible before message after heq)

/-- A tester who has the ECU to itself is always kept apart. -/
theorem separated_of_one_tester {τ : Type*} [DecidableEq τ] (blockLength : ℕ) (key : String)
    (address : ℕ) (profile : Profile) {tester : τ} {messages : List (τ × Request)}
    (h : ∀ message ∈ messages, message.1 = tester) :
    Separated blockLength (initial key address profile) messages := by
  apply separated_of_servesOwner
  intro before message after heq
  refine (servesOwner_iff (attributed_run blockLength key address profile before)).mpr ?_
  intro serviceId _ _ _ other hlast
  -- whoever sent an event of the trace sent one of the messages
  have hmem : other ∈ before.map Prod.fst := by
    rw [← testers_run blockLength (initial key address profile)]
    rcases hlast with ⟨past, e, rest, htrace, ⟨rfl, -⟩, -⟩ | ⟨past, e, rest, htrace, ⟨rfl, -⟩, -⟩
    · simp [htrace]
    · simp [htrace]
  obtain ⟨sent, hsent, rfl⟩ := List.mem_map.mp hmem
  rw [h sent (by simp [heq, hsent]), h message (by simp [heq])]

/-- The session of tester 1: opened, unlocked. -/
def unlockedSession : List (ℕ × Request) :=
  (bcmDownload.take 3).map fun r ↦ (1, r)

def eraseRequest : Request :=
  { payload := [0x31, 0x01, 0xFF, 0x00, 0, 0, 0, 2], expiryClock := 4, touchClock := 4 }

/-- Tester 2 has neither opened a session nor sent a key, and erases the memory. -/
theorem not_separated_erase :
    ¬ Separated 8192 (initial "bcm" 0x1002 bcmProfile) (unlockedSession ++ [(2, eraseRequest)]) := by
  intro hseparated
  obtain ⟨past, e, rest, htrace, ⟨htester, -⟩, -⟩ :=
    hseparated.granted unlockedSession (2, eraseRequest) [] rfl sidRoutineControl (by decide)
      (by decide +kernel)
  have htesters := testers_run 8192 (initial "bcm" 0x1002 bcmProfile) unlockedSession
  rw [htrace, List.map_append, List.map_cons, htester] at htesters
  have hmem : 2 ∈ unlockedSession.map Prod.fst := by
    rw [← htesters]
    simp
  exact absurd hmem (by decide)

end VehicleOta.Uds.ECUContext
