import VehicleOta.Uds.TaggedSession

/-!
# Which request a response was for

A block that is sent again leaves one answer behind.  As long as nothing is read behind it, every
response goes to the operation that it was produced for.
-/

namespace VehicleOta.Uds.Tagged

open ProgrammingServer BlockLogic

section Invariant

variable {σ : Type} {library? : Option UdsLibrary} {firmware : Bytes} {c call attempt : ℕ}
  {later : List ClientOperation} {t t' : Tagged σ}

/-! ## The invariant -/

/-- The tags of the messages under way, those first that arrive first. -/
def underWay (t : Tagged σ) : List Tag := t.responses.map Prod.fst ++ t.requests.map Prod.fst

/-- The request of the call or the operation with this number. -/
inductive IsRequest (firmware : Bytes) (c : ℕ) (later : List ClientOperation) : ℕ → Bytes → Prop
  | block (call : ℕ) (hcall : call < blockCount c firmware) :
      IsRequest firmware c later call (blockRequest c firmware call)
  | operation (number : ℕ) (operation : ClientOperation)
      (hnumber : Session.operation? (FlashManager.transferData c firmware) later number =
        some operation) : IsRequest firmware c later number operation.request

/-- The messages under way are requests of the client, and answers to its blocks. -/
structure Genuine (firmware : Bytes) (c : ℕ) (later : List ClientOperation) (t : Tagged σ) :
    Prop where
  requests : ∀ m ∈ t.requests, IsRequest firmware c later m.1.1 m.2
  responses : ∀ m ∈ t.responses, m.1.1 < blockCount c firmware → AnswersBlock m.1.1 m.2

/-- The client waits in attempt number `attempt` of a call; exactly its own requests or their
answers are under way. -/
structure Waits (firmware : Bytes) (c : ℕ) (t : Tagged σ) (call attempt : ℕ) : Prop where
  block : call < blockCount c firmware
  client : t.client =
    .waiting call ((call + 1) % 256) (blockRequest c firmware call) attempt false
  first : 1 ≤ attempt
  limit : attempt ≤ transferRetryLimit
  underWay : t.underWay = (List.range attempt).map fun i ↦ (call, i + 1)
  last : (call, attempt) ∈ t.sent
  sent : ∀ tag ∈ t.sent, tag.1 < call ∨ tag.1 = call ∧ tag.2 ≤ attempt

/-- The client waits in an operation; its request is under way, or what is left of the answers. -/
structure Operates (firmware : Bytes) (c : ℕ) (later : List ClientOperation) (t : Tagged σ)
    (number : ℕ) (operation : ClientOperation) (pending : Bool) : Prop where
  found : Session.operation? (FlashManager.transferData c firmware) later number = some operation
  client : t.client = .waiting number 0 operation.request 1 pending
  underWay : t.responses = [] ∧ t.requests = [((number, 1), operation.request)] ∨
    t.requests = [] ∧ ∃ answers : List Bytes, t.responses = answers.map (fun p ↦ ((number, 1), p)) ∧
      ∀ p ∈ answers.dropLast, isResponsePending p operation.serviceId = true

/-- The client waits behind a block that was sent again, and the second answer to that block comes
first. -/
structure Behind (firmware : Bytes) (c : ℕ) (later : List ClientOperation) (t : Tagged σ)
    (earlier : ℕ) : Prop where
  waiting : ∃ number sequence request attempt pending,
    t.client = .waiting number sequence request attempt pending ∧ earlier < number ∧
      IsRequest firmware c later number request
  block : earlier < blockCount c firmware
  sent : t.Resent earlier
  first : t.underWay.head? = some (earlier, 2)

inductive Standing (firmware : Bytes) (c : ℕ) (later : List ClientOperation) (t : Tagged σ) : Prop
  | inTime (call attempt : ℕ) (h : Waits firmware c t call attempt) (hnone : t.NoneResent)
  | operating (number : ℕ) (operation : ClientOperation) (pending : Bool)
      (h : Operates firmware c later t number operation pending) (hnone : ∀ call, ¬ t.Resent call)
  | late (earlier : ℕ) (h : Behind firmware c later t earlier)
  | returned (h : t.client = .returned)
  | raised (e : PyError) (h : t.client = .raised e)

structure Inv (firmware : Bytes) (c : ℕ) (later : List ClientOperation) (t : Tagged σ) : Prop where
  genuine : Genuine firmware c later t
  matched : t.Matched
  harmless : t.Harmless
  standing : Standing firmware c later t

theorem harmless_of_ne (h : ∀ e, t.client ≠ .raised e) : t.Harmless :=
  fun e he ↦ absurd he (h e)

theorem harmless_of_waiting {number sequence attempt : ℕ} {request : Bytes} {pending : Bool}
    (h : t.client = .waiting number sequence request attempt pending) : t.Harmless :=
  harmless_of_ne fun _ he ↦ Client.noConfusion (h.symm.trans he)

theorem harmless_of_none (h : ∀ call, ¬ t.Resent call) : t.Harmless :=
  fun _ _ call hcall ↦ absurd hcall (h call)

theorem Waits.tag (h : Waits firmware c t call attempt) : t.client.tag = (call, attempt) := by
  rw [h.client]
  rfl

/-- Behind a block that was sent again nothing may be read. -/
theorem Behind.resent {earlier : ℕ} (h : Behind firmware c later t earlier) : ¬ t.NoneResent := by
  intro hnone
  obtain ⟨number, sequence, request, attempt, pending, hclient, hearlier, -⟩ := h.waiting
  exact hnone earlier (by rwa [hclient]) h.sent

theorem IsRequest.block_eq {payload : Bytes} (h : IsRequest firmware c later call payload)
    (hcall : call < blockCount c firmware) : payload = blockRequest c firmware call := by
  cases h with
  | block => rfl
  | operation _ hnumber => exact absurd hcall (not_lt.mpr (Session.le_of_operation? hnumber))

/-! ## Requests -/

/-- The client waits for the answer to a request that it has just sent. -/
def send (t : Tagged σ) (number sequence : ℕ) (payload : Bytes) (attempt : ℕ) : Tagged σ :=
  { t with
    client := .waiting number sequence payload attempt false
    requests := t.requests ++ [((number, attempt), payload)]
    sent := t.sent ++ [(number, attempt)] }

theorem Genuine.send (h : Genuine firmware c later t) {number sequence : ℕ} {payload : Bytes}
    (hrequest : IsRequest firmware c later number payload) (attempt : ℕ) :
    Genuine firmware c later (t.send number sequence payload attempt) := by
  refine ⟨fun m hm ↦ ?_, h.responses⟩
  rcases List.mem_append.mp hm with hm | hm
  · exact h.requests m hm
  · rw [List.mem_singleton.mp hm]
    exact hrequest

theorem underWay_send (number sequence : ℕ) (payload : Bytes) (attempt : ℕ) :
    (t.send number sequence payload attempt).underWay = t.underWay ++ [(number, attempt)] := by
  simp [underWay, Tagged.send]

/-- What is under way when the client goes on: nothing, or the second answer to a block. -/
def Left (firmware : Bytes) (c : ℕ) (t : Tagged σ) (number : ℕ) : Prop :=
  t.underWay = [] ∧ (∀ call, ¬ t.Resent call) ∨
    ∃ earlier, earlier < number ∧ earlier < blockCount c firmware ∧
      t.underWay = [(earlier, 2)] ∧ t.Resent earlier

theorem resent_send_iff {number sequence : ℕ} {payload : Bytes} {attempt : ℕ} :
    (t.send number sequence payload attempt).Resent call ↔
      t.Resent call ∨ call = number ∧ 2 = attempt := by
  simp [Resent, Tagged.send]

theorem none_resent_send (h : ∀ call, ¬ t.Resent call) (number sequence : ℕ) (payload : Bytes)
    (call : ℕ) : ¬ (t.send number sequence payload 1).Resent call := by
  rw [resent_send_iff, not_or]
  exact ⟨h call, by simp⟩

theorem behind_send {earlier number sequence attempt : ℕ} {payload : Bytes}
    (hrequest : IsRequest firmware c later number payload) (hearlier : earlier < number)
    (hblock : earlier < blockCount c firmware) (hsent : t.Resent earlier)
    (hfirst : t.underWay.head? = some (earlier, 2)) :
    Behind firmware c later (t.send number sequence payload attempt) earlier := by
  refine ⟨⟨number, sequence, payload, attempt, false, rfl, hearlier, hrequest⟩, hblock,
    List.mem_append_left _ hsent, ?_⟩
  rw [underWay_send, List.head?_append, hfirst]
  rfl

/-- The next operation, with nothing or one answer under way. -/
theorem Genuine.startOperation (h : Genuine firmware c later t) {l : Session σ}
    (hl : l.requests = t.session.requests) (hmatched : t.Matched) {number : ℕ}
    (hleft : Left firmware c t number) :
    Inv firmware c later
      (t.adopt (l.startOperation (FlashManager.transferData c firmware) later number)) := by
  unfold Session.startOperation
  cases hoperation : Session.operation? (FlashManager.transferData c firmware) later number with
  | none =>
      dsimp only
      rw [adopt_of_same (l := { l with client := .returned }) hl]
      exact ⟨⟨h.requests, h.responses⟩, hmatched, harmless_of_ne fun _ ↦ Client.noConfusion,
        .returned rfl⟩
  | some operation =>
      have hrequest : IsRequest firmware c later number operation.request :=
        .operation number operation hoperation
      dsimp only
      rw [adopt_of_sent (congrArg (· ++ [operation.request]) hl)]
      refine ⟨h.send hrequest 1, hmatched, harmless_of_waiting rfl, ?_⟩
      rcases hleft with ⟨hway, hnone⟩ | ⟨earlier, hearlier, hblock, hway, hsent⟩
      · obtain ⟨hresponses, hrequests⟩ := List.append_eq_nil_iff.mp hway
        refine .operating number operation false ⟨hoperation, rfl, .inl ⟨?_, ?_⟩⟩
          (none_resent_send hnone number 0 operation.request)
        · exact List.map_eq_nil_iff.mp hresponses
        · rw [List.map_eq_nil_iff.mp hrequests]
          rfl
      · exact .late earlier (behind_send hrequest hearlier hblock hsent (by rw [hway]; rfl))

/-- The next call, or the operations, with nothing or one answer under way. -/
theorem Genuine.startCall (h : Genuine firmware c later t) (hlibrary : DocumentedLibrary library?)
    {l : Session σ} (hl : l.requests = t.session.requests) (hmatched : t.Matched)
    (hcall : call ≤ blockCount c firmware) (hsent : ∀ tag ∈ t.sent, tag.1 < call)
    (hleft : Left firmware c t call) :
    Inv firmware c later
      (t.adopt ((l.startCall library? (FlashManager.transferData c firmware) call).proceed
        (FlashManager.transferData c firmware) later)) := by
  rcases Nat.lt_or_ge call (blockCount c firmware) with hlt | hge
  · have hrequest : IsRequest firmware c later call (blockRequest c firmware call) :=
      .block call hlt
    rw [Session.startCall_of_lt hlibrary hlt, Session.proceed]
    dsimp only
    rw [adopt_of_sent (congrArg (· ++ [blockRequest c firmware call]) hl)]
    refine ⟨h.send hrequest 1, hmatched, harmless_of_waiting rfl, ?_⟩
    rcases hleft with ⟨hway, hnone⟩ | ⟨earlier, hearlier, hblock, hway, hagain⟩
    · have hwaits : Waits firmware c
          (t.send call ((call + 1) % 256) (blockRequest c firmware call) 1) call 1 := by
        refine ⟨hlt, rfl, le_rfl, by decide, ?_, by simp [Tagged.send], fun tag htag ↦ ?_⟩
        · rw [underWay_send, hway]
          rfl
        · rcases List.mem_append.mp htag with htag | htag
          · exact .inl (hsent tag htag)
          · rw [List.mem_singleton.mp htag]
            exact .inr ⟨rfl, le_rfl⟩
      exact .inTime call 1 hwaits fun call _ ↦ none_resent_send hnone _ _ _ call
    · exact .late earlier (behind_send hrequest hearlier hblock hagain (by rw [hway]; rfl))
  · obtain rfl : call = blockCount c firmware := le_antisymm hcall hge
    rw [Session.startCall_of_ge le_rfl, Session.proceed_of_returned, length_transferData]
    exact h.startOperation hl hmatched hleft

theorem Genuine.raise (h : Genuine firmware c later t) (hmatched : t.Matched) {e : PyError}
    (hharmless : Harmless { t with client := .raised e }) {l : Session σ}
    (hl : l.requests = t.session.requests) :
    Inv firmware c later (t.adopt { l with client := .raised e }) := by
  rw [adopt_of_same (l := { l with client := .raised e }) hl]
  exact ⟨⟨h.requests, h.responses⟩, hmatched, hharmless, .raised e rfl⟩

/-! ## Time-outs -/

theorem Waits.timeOut (h : Waits firmware c t call 1) :
    t.adopt (t.session.timeOut (FlashManager.transferData c firmware)) =
      t.send call ((call + 1) % 256) (blockRequest c firmware call) 2 := by
  have hclient : t.session.client =
      .waiting call ((call + 1) % 256) (blockRequest c firmware call) 1 false := h.client
  unfold Session.timeOut
  rw [hclient]
  dsimp only
  rw [if_pos (by rw [length_transferData]; exact h.block), Session.expire, hclient]
  exact adopt_of_sent rfl

theorem Waits.resend (h : Waits firmware c t call 1) :
    Waits firmware c (t.send call ((call + 1) % 256) (blockRequest c firmware call) 2) call 2 := by
  refine ⟨h.block, rfl, by decide, by decide, ?_, by simp [Tagged.send], fun tag htag ↦ ?_⟩
  · rw [underWay_send, h.underWay]
    rfl
  · rcases List.mem_append.mp htag with htag | htag
    · exact (h.sent tag htag).imp_right fun hsame ↦ ⟨hsame.1, hsame.2.trans (by decide)⟩
    · rw [List.mem_singleton.mp htag]
      exact .inr ⟨rfl, le_rfl⟩

/-- A time-out that leaves an attempt sends the request again, whatever it is. -/
theorem Behind.timeOut {earlier : ℕ} (h : Behind firmware c later t earlier)
    (hgenuine : Genuine firmware c later t) (hmatched : t.Matched)
    (hleft : ¬ t.LastAttempt (FlashManager.transferData c firmware)) :
    Inv firmware c later (t.adopt (t.session.timeOut (FlashManager.transferData c firmware))) := by
  obtain ⟨number, sequence, request, attempt, pending, hclient, hearlier, hrequest⟩ := h.waiting
  have hsession : t.session.client = .waiting number sequence request attempt pending := hclient
  rw [LastAttempt, hclient] at hleft
  dsimp only at hleft
  obtain ⟨hnumber, hattempt⟩ := not_or.mp hleft
  unfold Session.timeOut
  rw [hsession]
  dsimp only
  rw [if_pos (not_le.mp hnumber), Session.expire, hsession]
  dsimp only
  rw [if_neg hattempt, adopt_of_sent rfl]
  exact ⟨hgenuine.send hrequest (attempt + 1), hmatched, harmless_of_waiting rfl,
    .late earlier (behind_send hrequest hearlier h.block h.sent h.first)⟩

/-- A time-out leaves the standing as it is, or ends a run without a late block. -/
theorem Inv.timeout (h : Inv firmware c later t) {handle : Request → σ → Outcome σ}
    (htimely : t.Timely (FlashManager.transferData c firmware) .timeout)
    (hstep : t.step? library? (FlashManager.transferData c firmware) later handle .timeout =
      some t') : Inv firmware c later t' := by
  cases h.standing with
  | inTime call attempt hwaits hnone =>
      rw [step?, hwaits.client] at hstep
      obtain rfl := Option.some.inj hstep
      have hfirst := hwaits.first
      have hlimit := hwaits.limit
      rw [transferRetryLimit] at hlimit
      obtain rfl | rfl : attempt = 1 ∨ attempt = 2 := by omega
      · rw [hwaits.timeOut]
        refine ⟨h.genuine.send (.block call hwaits.block) 2, h.matched, harmless_of_waiting rfl,
          .inTime call 2 hwaits.resend fun earlier hearlier ↦ ?_⟩
        have hearlier : earlier < call := hearlier
        rw [resent_send_iff, not_or]
        exact ⟨hnone earlier (by rwa [hwaits.tag]), fun hsame ↦ hearlier.ne hsame.1⟩
      · have hended : t.LastAttempt (FlashManager.transferData c firmware) := by
          rw [LastAttempt, hwaits.client]
          exact .inr (.inr le_rfl)
        exact absurd hwaits.last (htimely hended call)
  | operating number operation pending hoperates hnone =>
      have hclient : t.session.client = .waiting number 0 operation.request 1 pending :=
        hoperates.client
      have hnumber := Session.le_of_operation? hoperates.found
      rw [step?, hoperates.client] at hstep
      obtain rfl := Option.some.inj hstep
      unfold Session.timeOut
      rw [hclient]
      dsimp only
      rw [if_neg (by rw [length_transferData]; exact not_lt.mpr hnumber)]
      exact h.genuine.raise h.matched (harmless_of_none hnone) rfl
  | late earlier hbehind =>
      obtain ⟨number, sequence, request, attempt, pending, hclient, -⟩ := hbehind.waiting
      have hleft : ¬ t.LastAttempt (FlashManager.transferData c firmware) := fun hended ↦
        htimely hended earlier hbehind.sent
      rw [step?, hclient] at hstep
      obtain rfl := Option.some.inj hstep
      exact hbehind.timeOut h.genuine h.matched hleft
  | returned hclient =>
      rw [step?, hclient] at hstep
      cases hstep
  | raised e hclient =>
      rw [step?, hclient] at hstep
      cases hstep

/-! ## Reads -/

/-- The rest of what was under way, with the response taken by the call or operation. -/
def take (t : Tagged σ) (number : ℕ) (tag : Tag) (response : Bytes)
    (responses : List (Tag × Bytes)) : Tagged σ :=
  { t with responses, consumed := t.consumed ++ [(number, tag, response)] }

theorem Genuine.take (h : Genuine firmware c later t) (number : ℕ) {tag : Tag} {response : Bytes}
    {responses : List (Tag × Bytes)} (hresponses : t.responses = (tag, response) :: responses) :
    Genuine firmware c later (t.take number tag response responses) :=
  ⟨h.requests, fun m hm ↦ h.responses m (by simp [hresponses, show m ∈ responses from hm])⟩

theorem matched_take (h : t.Matched) {number : ℕ} {tag : Tag} (htag : tag.1 = number)
    (response : Bytes) (responses : List (Tag × Bytes)) :
    (t.take number tag response responses).Matched := by
  intro x hx
  rcases List.mem_append.mp hx with hx | hx
  · exact h x hx
  · rw [List.mem_singleton.mp hx]
    exact htag

/-- A call takes the answer to its first request. -/
theorem Waits.read (h : Waits firmware c t call attempt) (hinv : Inv firmware c later t)
    (hnone : t.NoneResent) (hlibrary : DocumentedLibrary library?) {tag : Tag} {response : Bytes}
    {responses : List (Tag × Bytes)} (hresponses : t.responses = (tag, response) :: responses) :
    Inv firmware c later ((t.take call tag response responses).adopt
      (t.session.readResponse library? (FlashManager.transferData c firmware) later response)) := by
  have hway := h.underWay
  have hfirst := h.first
  have hlimit := h.limit
  rw [transferRetryLimit] at hlimit
  -- the first message under way is the answer to the first attempt
  have htags : tag = (call, 1) ∧ (attempt = 1 ∧
        responses.map Prod.fst ++ t.requests.map Prod.fst = [] ∨
      attempt = 2 ∧ responses.map Prod.fst ++ t.requests.map Prod.fst = [(call, 2)]) := by
    rw [Tagged.underWay, hresponses] at hway
    obtain rfl | rfl : attempt = 1 ∨ attempt = 2 := by omega
    · obtain ⟨htag, hrest⟩ := List.cons.inj hway
      exact ⟨htag, .inl ⟨rfl, hrest⟩⟩
    · obtain ⟨htag, hrest⟩ := List.cons.inj hway
      exact ⟨htag, .inr ⟨rfl, hrest⟩⟩
  obtain ⟨rfl, hrest⟩ := htags
  have hanswer : AnswersBlock call response :=
    hinv.genuine.responses ((call, 1), response) (by simp [hresponses]) h.block
  have hgenuine := hinv.genuine.take call hresponses
  have hmatched := matched_take hinv.matched (show (call, 1).1 = call from rfl) response responses
  rw [Session.readResponse_of_block h.block h.client]
  rcases Session.receive_answer (l := t.session) hanswer h.client with
    hreceive | ⟨e, hreceive, hrefusal⟩
  · rw [hreceive]
    refine hgenuine.startCall (l := t.session) hlibrary rfl hmatched h.block (fun tag htag ↦ ?_) ?_
    · rcases h.sent tag htag with hlt | ⟨heq, -⟩
      · exact hlt.trans (Nat.lt_succ_self _)
      · exact heq ▸ Nat.lt_succ_self _
    · rcases hrest with ⟨rfl, hrest⟩ | ⟨rfl, hrest⟩
      · refine .inl ⟨hrest, fun earlier hearlier ↦ ?_⟩
        rcases h.sent _ hearlier with hlt | ⟨-, hle⟩
        · exact hnone earlier (by rwa [h.tag]) hearlier
        · exact absurd hle (by simp)
      · exact .inr ⟨call, Nat.lt_succ_self _, h.block, hrest, h.last⟩
  · rw [hreceive, Session.proceed]
    dsimp only
    refine hgenuine.raise (l := t.session) hmatched (fun e' he' late hlate ↦ ?_) rfl
    -- the only late block is the one that was refused
    obtain rfl := Client.raised.inj he'
    have hsame : late = call := by
      rcases h.sent (late, 2) hlate with hlt | ⟨heq, -⟩
      · exact absurd hlate (hnone late (by rwa [h.tag]))
      · exact heq
    rw [hsame]
    exact ⟨response, by simp [Tagged.take], hrefusal⟩

/-- An operation takes the answers to its request, up to the one that announces no other. -/
theorem Operates.read {number : ℕ} {operation : ClientOperation} {pending : Bool}
    (h : Operates firmware c later t number operation pending) (hinv : Inv firmware c later t)
    (hnone : ∀ call, ¬ t.Resent call) {tag : Tag} {response : Bytes}
    {responses : List (Tag × Bytes)} (hresponses : t.responses = (tag, response) :: responses) :
    Inv firmware c later ((t.take number tag response responses).adopt
      (t.session.readResponse library? (FlashManager.transferData c firmware) later response)) := by
  have hclient : t.session.client = .waiting number 0 operation.request 1 pending := h.client
  rcases h.underWay with ⟨hnil, -⟩ | ⟨hrequests, answers, hanswers, hannounced⟩
  · rw [hresponses] at hnil
    cases hnil
  rw [hresponses] at hanswers
  cases answers with
  | nil => cases hanswers
  | cons answer answers =>
      obtain ⟨hanswer, rfl⟩ := List.cons.inj hanswers
      obtain ⟨rfl, rfl⟩ := Prod.mk.inj hanswer
      have hgenuine := hinv.genuine.take number hresponses
      have hmatched := matched_take hinv.matched (show (number, 1).1 = number from rfl) response
        (answers.map fun p ↦ ((number, 1), p))
      unfold Session.readResponse
      rw [hclient]
      dsimp only
      rw [h.found]
      dsimp only
      cases hcheck : checkResponse operation.serviceId response with
      | none =>
          dsimp only
          have hsame : ({ t.session with client := .waiting number 0 operation.request 1 true } :
              Session σ).requests = (t.take number (number, 1) response
                (answers.map fun p ↦ ((number, 1), p))).session.requests := rfl
          rw [adopt_of_same hsame]
          refine ⟨⟨hgenuine.requests, hgenuine.responses⟩, hmatched, harmless_of_waiting rfl,
            .operating number operation true ⟨h.found, rfl, .inr ⟨hrequests, answers, rfl, ?_⟩⟩
              hnone⟩
          intro p hp
          cases answers with
          | nil => cases hp
          | cons next answers => exact hannounced p (List.mem_cons_of_mem _ hp)
      | some result =>
          cases result with
          | error e =>
              dsimp only
              exact hgenuine.raise (l := t.session) hmatched (harmless_of_none hnone) rfl
          | ok value =>
              -- nothing comes behind a response that announces nothing
              have hlast : answers = [] := by
                cases answers with
                | nil => rfl
                | cons next answers =>
                    have hpending := hannounced response List.mem_cons_self
                    rw [checkResponse, if_pos hpending] at hcheck
                    cases hcheck
              subst hlast
              refine hgenuine.startOperation (l := t.session) rfl hmatched (.inl ⟨?_, hnone⟩)
              rw [Tagged.underWay, Tagged.take, hrequests]
              rfl

theorem Inv.read (h : Inv firmware c later t) (hlibrary : DocumentedLibrary library?)
    (hnone : t.NoneResent) {handle : Request → σ → Outcome σ}
    (hstep : t.step? library? (FlashManager.transferData c firmware) later handle .read =
      some t') : Inv firmware c later t' := by
  unfold step? at hstep
  dsimp only at hstep
  split at hstep
  case h_2 => cases hstep
  rename_i number _ _ _ _ tag response responses hclient hresponses
  obtain rfl := Option.some.inj hstep
  cases h.standing with
  | inTime call attempt hwaits _ =>
      rw [hwaits.client, Client.waiting.injEq] at hclient
      obtain ⟨rfl, -⟩ := hclient
      exact hwaits.read h hnone hlibrary hresponses
  | operating number operation pending hoperates hsent =>
      rw [hoperates.client, Client.waiting.injEq] at hclient
      obtain ⟨rfl, -⟩ := hclient
      exact hoperates.read h hsent hresponses
  | late earlier hbehind => exact absurd hnone hbehind.resent
  | returned h => exact absurd (hclient.symm.trans h) Client.noConfusion
  | raised e h => exact absurd (hclient.symm.trans h) Client.noConfusion

end Invariant

/-! ## Runs against the gateway -/

section Runs

variable {library? : Option UdsLibrary} {firmware : Bytes} {c blockLength call attempt : ℕ}
  {later : List ClientOperation} {t t' : Tagged ECUContext}

section Answer

variable {r : Request} {tag : Tag} {payload : Bytes} {requests : List (Tag × Bytes)}

/-- The server has answered the oldest request; the answers take its place among the messages. -/
def answer (blockLength : ℕ) (t : Tagged ECUContext) (r : Request) (tag : Tag)
    (requests : List (Tag × Bytes)) : Tagged ECUContext :=
  { t with
    requests
    responses := t.responses ++
      (ECUContext.handle blockLength r t.server).responses.map fun p ↦ (tag, p)
    server := (ECUContext.handle blockLength r t.server).state }

variable (hrequests : t.requests = (tag, payload) :: requests) (hpayload : r.payload = payload)

include hrequests hpayload

/-- A request for a block has one answer. -/
theorem Genuine.answers_block (h : Genuine firmware c later t) (blockLength : ℕ)
    (hcall : tag.1 < blockCount c firmware) :
    ∃ response, (ECUContext.handle blockLength r t.server).responses = [response] ∧
      AnswersBlock tag.1 response := by
  have hrequest : IsRequest firmware c later tag.1 payload :=
    h.requests (tag, payload) (by simp [hrequests])
  exact ECUContext.responses_handle_block (hpayload.trans (hrequest.block_eq hcall)) t.server

theorem Genuine.underWay_answer (h : Genuine firmware c later t)
    (hcall : tag.1 < blockCount c firmware) :
    (t.answer blockLength r tag requests).underWay = t.underWay := by
  obtain ⟨response, hresponse, -⟩ := h.answers_block hrequests hpayload blockLength hcall
  simp [underWay, Tagged.answer, hrequests, hresponse]

theorem Genuine.answer (h : Genuine firmware c later t) :
    Genuine firmware c later (t.answer blockLength r tag requests) := by
  refine ⟨fun m hm ↦ h.requests m ?_, fun m hm hcall ↦ ?_⟩
  · rw [hrequests]
    exact List.mem_cons_of_mem _ hm
  · rcases List.mem_append.mp hm with hm | hm
    · exact h.responses m hm hcall
    · obtain ⟨p, hp, rfl⟩ := List.mem_map.mp hm
      obtain ⟨response, hresponse, hanswer⟩ := h.answers_block hrequests hpayload blockLength hcall
      rw [hresponse] at hp
      rwa [List.mem_singleton.mp hp]

theorem Waits.answer (h : Waits firmware c t call attempt)
    (hgenuine : Genuine firmware c later t) :
    Waits firmware c (t.answer blockLength r tag requests) call attempt := by
  have hcall : tag.1 = call := by
    have hmem : tag ∈ t.underWay := by simp [Tagged.underWay, hrequests]
    rw [h.underWay] at hmem
    obtain ⟨i, -, rfl⟩ := List.mem_map.mp hmem
    rfl
  have hway : (t.answer blockLength r tag requests).underWay = t.underWay :=
    hgenuine.underWay_answer hrequests hpayload (hcall ▸ h.block)
  exact { h with underWay := hway.trans h.underWay }

theorem Operates.answer {number : ℕ} {operation : ClientOperation} {pending : Bool}
    (h : Operates firmware c later t number operation pending) :
    Operates firmware c later (t.answer blockLength r tag requests) number operation pending := by
  rcases h.underWay with ⟨hresponses, hrequest⟩ | ⟨hnil, -⟩
  · obtain ⟨htag, hrest⟩ := List.cons.inj (hrequests.symm.trans hrequest)
    obtain ⟨rfl, rfl⟩ := Prod.mk.inj htag
    refine ⟨h.found, h.client, .inr ⟨hrest,
      (ECUContext.handle blockLength r t.server).responses, ?_, ?_⟩⟩
    · rw [Tagged.answer, hresponses]
      rfl
    · exact ECUContext.announced_handle (hpayload ▸ operation.head) t.server
  · rw [hrequests] at hnil
    cases hnil

/-- The left-over answer stays in front, or is the one that the server gives now. -/
theorem Behind.answer {earlier : ℕ} (h : Behind firmware c later t earlier)
    (hgenuine : Genuine firmware c later t) :
    Behind firmware c later (t.answer blockLength r tag requests) earlier := by
  refine ⟨h.waiting, h.block, h.sent, ?_⟩
  have hfirst := h.first
  cases hresponses : t.responses with
  | nil =>
      rw [underWay, hresponses, hrequests] at hfirst
      obtain rfl : tag = (earlier, 2) := Option.some.inj hfirst
      rw [hgenuine.underWay_answer hrequests hpayload h.block]
      exact h.first
  | cons m responses =>
      rw [underWay, hresponses] at hfirst
      rw [underWay, Tagged.answer, hresponses]
      exact hfirst

end Answer

theorem Inv.deliver (h : Inv firmware c later t) {calls : List (ℕ × Bytes)} {r : Request}
    (hstep : t.step? library? calls later (ECUContext.handle blockLength) (.deliver r) = some t') :
    Inv firmware c later t' := by
  unfold step? at hstep
  dsimp only at hstep
  split at hstep
  case h_1 => cases hstep
  rename_i tag payload requests hrequests
  split at hstep
  case isFalse => cases hstep
  rename_i hpayload
  obtain rfl : t.answer blockLength r tag requests = t' := Option.some.inj hstep
  refine ⟨h.genuine.answer hrequests hpayload, h.matched, h.harmless, ?_⟩
  cases h.standing with
  | inTime call attempt hwaits hnone =>
      exact .inTime call attempt (hwaits.answer hrequests hpayload h.genuine) hnone
  | operating number operation pending hoperates hnone =>
      exact .operating number operation pending (hoperates.answer hrequests hpayload) hnone
  | late earlier hbehind => exact .late earlier (hbehind.answer hrequests hpayload h.genuine)
  | returned hclient => exact .returned hclient
  | raised e hclient => exact .raised e hclient

theorem inv_start (hlibrary : DocumentedLibrary library?) (ecu : ECUContext) :
    Inv firmware c later (start library? (FlashManager.transferData c firmware) later ecu) := by
  have hidle : Genuine firmware c later
      ({ client := .returned, server := ecu } : Tagged ECUContext) := ⟨by simp, by simp⟩
  exact hidle.startCall hlibrary rfl (by simp [Matched]) (Nat.zero_le _) (by simp)
    (.inl ⟨rfl, by simp [Resent]⟩)

variable {calls : List (ℕ × Bytes)} {handle : Request → ECUContext → Outcome ECUContext}
  {events : List Event} {e : Event}

theorem InTime.of_concat (h : InTime library? calls later handle t (events ++ [e])) :
    InTime library? calls later handle t events := by
  intro before e' after u heq
  exact h before e' (after ++ [e]) u (by simp [heq])

/-- The invariant along a run that is in time. -/
theorem inv_of_run (hlibrary : DocumentedLibrary library?) (ecu : ECUContext)
    (hrun : run? library? (FlashManager.transferData c firmware) later
      (ECUContext.handle blockLength)
      (start library? (FlashManager.transferData c firmware) later ecu) events = some t)
    (htimely : InTime library? (FlashManager.transferData c firmware) later
      (ECUContext.handle blockLength)
      (start library? (FlashManager.transferData c firmware) later ecu) events) :
    Inv firmware c later t := by
  induction events using List.reverseRecOn generalizing t with
  | nil =>
      obtain rfl := Option.some.inj hrun
      exact inv_start hlibrary ecu
  | append_singleton events e ih =>
      obtain ⟨u, hbefore, hstep⟩ := run?_concat_eq_some.mp hrun
      have h := ih hbefore htimely.of_concat
      have hevent := htimely events e [] u rfl hbefore
      cases e with
      | deliver r => exact h.deliver hstep
      | read => exact h.read hlibrary hevent hstep
      | timeout => exact h.timeout hevent hstep
      | loseRequest k => cases hstep
      | loseResponse k => cases hstep
      | abort e => cases hstep

/-- A step adds to what was consumed, and an exception stays as it is. -/
theorem of_step (hstep : t.step? library? calls later handle e = some t') :
    t.consumed <+: t'.consumed ∧
      ∀ e', t.client = .raised e' → t'.client = t.client ∧ t'.sent = t.sent ∧
        t'.consumed = t.consumed := by
  unfold step? at hstep
  split at hstep
  · split at hstep
    · cases hstep
    · split at hstep
      · obtain rfl := Option.some.inj hstep
        exact ⟨List.prefix_refl _, fun _ _ ↦ ⟨rfl, rfl, rfl⟩⟩
      · cases hstep
  · split at hstep
    · rename_i hclient _
      obtain rfl := Option.some.inj hstep
      exact ⟨List.prefix_append _ _, fun e' he' ↦ Client.noConfusion (hclient.symm.trans he')⟩
    · cases hstep
  · split at hstep
    · rename_i hclient
      obtain rfl := Option.some.inj hstep
      exact ⟨List.prefix_refl _, fun e' he' ↦ Client.noConfusion (hclient.symm.trans he')⟩
    · cases hstep
  · cases hstep

theorem Matched.of_step (h : t'.Matched)
    (hstep : t.step? library? calls later handle e = some t') : t.Matched :=
  fun x hx ↦ h x ((Tagged.of_step hstep).1.subset hx)

theorem Harmless.of_step (h : t'.Harmless)
    (hstep : t.step? library? calls later handle e = some t') : t.Harmless := by
  intro e' he' call hcall
  obtain ⟨hclient, hsent, hconsumed⟩ := (Tagged.of_step hstep).2 e' he'
  have hcall : t'.Resent call := by
    unfold Resent
    rw [hsent]
    exact hcall
  rw [← hconsumed]
  exact h e' (hclient.trans he') call hcall

/-- A read behind a block that was sent again takes what that block left over. -/
theorem Inv.noneResent (h : Inv firmware c later t)
    (hstep : t.step? library? calls later handle .read = some t') (hmatched : t'.Matched) :
    t.NoneResent := by
  unfold step? at hstep
  dsimp only at hstep
  split at hstep
  case h_2 => cases hstep
  rename_i number _ _ _ _ tag response responses hclient hresponses
  obtain rfl := Option.some.inj hstep
  cases h.standing with
  | inTime call attempt hwaits hnone => exact hnone
  | operating number operation pending hoperates hnone => exact fun call _ ↦ hnone call
  | returned h => exact absurd (hclient.symm.trans h) Client.noConfusion
  | raised e h => exact absurd (hclient.symm.trans h) Client.noConfusion
  | late earlier hbehind =>
      obtain ⟨number, sequence, request, attempt, pending, hwaiting, hearlier, -⟩ := hbehind.waiting
      rw [hwaiting, Client.waiting.injEq] at hclient
      obtain ⟨rfl, -⟩ := hclient
      have hfirst := hbehind.first
      rw [underWay, hresponses] at hfirst
      obtain rfl : tag = (earlier, 2) := Option.some.inj hfirst
      have hsame : earlier = number := hmatched (number, (earlier, 2), response) (by simp)
      exact absurd hsame hearlier.ne

/-- A last attempt that times out raises. -/
theorem timeOut_of_lastAttempt {calls : List (ℕ × Bytes)} (hlast : t.LastAttempt calls) :
    (t.adopt (t.session.timeOut calls)).client =
        .raised (.timeoutError "Timed out waiting for diagnostic response") ∧
      (t.adopt (t.session.timeOut calls)).sent = t.sent := by
  have hclient : t.session.client = t.client := rfl
  unfold LastAttempt at hlast
  split at hlast
  · rename_i number sequence request attempt pending hwaiting
    have hraised : t.session.timeOut calls = { t.session with
        client := .raised (.timeoutError "Timed out waiting for diagnostic response") } := by
      unfold Session.timeOut
      rw [hclient, hwaiting]
      dsimp only
      split
      · rename_i hcall
        rw [Session.expire, hclient, hwaiting]
        exact if_pos (hlast.resolve_left (not_le.mpr hcall))
      · rfl
    rw [hraised, adopt_of_same (t := t) (l := { t.session with
      client := .raised (.timeoutError "Timed out waiting for diagnostic response") }) rfl]
    exact ⟨rfl, rfl⟩
  · cases hlast

theorem checkResponse_ne_timeout {serviceId : UInt8} {response : Bytes} {text : String} :
    checkResponse serviceId response ≠ some (.error (.timeoutError text)) := by
  unfold checkResponse
  split
  · simp
  · split
    · simp
    · split
      · simp
      · simp

/-- An exception over a time-out is harmless in a run without a late block only. -/
theorem none_resent_of_timeout (hlast : t.LastAttempt calls)
    (hstep : t.step? library? calls later handle .timeout = some t') (hharmless : t'.Harmless)
    (call : ℕ) : ¬ t.Resent call := by
  intro hcall
  obtain ⟨hraised, hsent⟩ := timeOut_of_lastAttempt hlast
  unfold step? at hstep
  dsimp only at hstep
  split at hstep
  · obtain rfl := Option.some.inj hstep
    obtain ⟨response, -, hrefusal⟩ := hharmless _ hraised call (by rwa [Resent, hsent])
    exact checkResponse_ne_timeout hrefusal
  · cases hstep

theorem timely_of_step (hinv : Inv firmware c later t)
    (hstep : t.step? library? calls later handle e = some t') (hmatched : t'.Matched)
    (hharmless : t'.Harmless) : t.Timely calls e := by
  cases e with
  | read => exact hinv.noneResent hstep hmatched
  | timeout => exact fun hlast ↦ none_resent_of_timeout hlast hstep hharmless
  | deliver r => trivial
  | loseRequest k => trivial
  | loseResponse k => trivial
  | abort e => trivial

/-- For every download on a connection that loses nothing, and whatever operations the client calls
behind it: every response is consumed by the operation it was produced for, and a late block
makes nothing raise, exactly if nothing is read behind a block that was sent again and no last
attempt times out once a block was sent again. -/
theorem responses_matched_iff (hlibrary : DocumentedLibrary library?) (ecu : ECUContext)
    (hrun : run? library? (FlashManager.transferData c firmware) later
      (ECUContext.handle blockLength)
      (start library? (FlashManager.transferData c firmware) later ecu) events = some t) :
    t.Matched ∧ t.Harmless ↔
      InTime library? (FlashManager.transferData c firmware) later (ECUContext.handle blockLength)
        (start library? (FlashManager.transferData c firmware) later ecu) events := by
  constructor
  · rintro ⟨hmatched, hharmless⟩
    induction events using List.reverseRecOn generalizing t with
    | nil =>
        intro before e after u heq
        exact absurd heq (by simp)
    | append_singleton events e ih =>
        obtain ⟨u, hbefore, hstep⟩ := run?_concat_eq_some.mp hrun
        have hearlier := ih hbefore (hmatched.of_step hstep) (hharmless.of_step hstep)
        have hinv := inv_of_run hlibrary ecu hbefore hearlier
        intro before e' after v heq hv
        rcases List.eq_nil_or_concat after with rfl | ⟨front, last, rfl⟩
        · obtain ⟨rfl, hlast⟩ := List.append_inj' heq rfl
          obtain rfl := List.singleton_inj.mp hlast
          obtain rfl := Option.some.inj (hbefore.symm.trans hv)
          exact timely_of_step hinv hstep hmatched hharmless
        · have heq' : events ++ [e] = (before ++ e' :: front) ++ [last] := by simpa using heq
          exact hearlier before e' front v (List.append_inj' heq' rfl).1 hv
  · intro htimely
    have h := inv_of_run hlibrary ecu hrun htimely
    exact ⟨h.matched, h.harmless⟩

/-! ## Two blocks and the transfer exit -/

/-- The BCM behind an accepted RequestDownload for two bytes. -/
def bcmReceiving : ECUContext :=
  { ECUContext.initial "bcm" 0x1002 ⟨"bcm_v2.bin", "2.0.0"⟩ with
    base := { currentSession := 0x02, securityUnlocked := true, eraseCompleted := true
              expectedSize := 2 } }

def twoBlocks : List (ℕ × Bytes) := FlashManager.transferData 1 [7, 8]

/-- `request_transfer_exit` -/
def transferExitOperation : ClientOperation := ⟨sidRequestTransferExit, [0x37], rfl⟩

def blockMessage (number byte : UInt8) : Event := .deliver { payload := [0x36, number, byte] }

def exitMessage : Event := .deliver { payload := [0x37], original := .ok [7, 8] }

/-- The first block is sent twice; its second answer comes to the second call. -/
def lateEvents : List Event :=
  [.timeout, blockMessage 1 7, .read, blockMessage 1 7, .read]

/-- The second block is sent twice; its second answer comes to `request_transfer_exit`. -/
def lateExitEvents : List Event :=
  [blockMessage 1 7, .read, .timeout, blockMessage 2 8, .read, blockMessage 2 8, .read]

/-- The second call, and the transfer exit, raise over an answer to the block in front. -/
theorem late_answer_raises :
    (∃ t, run? none twoBlocks [transferExitOperation] (ECUContext.handle 8192)
        (start none twoBlocks [transferExitOperation] bcmReceiving) lateEvents = some t ∧
      ¬ t.Matched ∧ ¬ t.Harmless) ∧
    ∃ t, run? none twoBlocks [transferExitOperation] (ECUContext.handle 8192)
        (start none twoBlocks [transferExitOperation] bcmReceiving) lateExitEvents = some t ∧
      ¬ t.Matched ∧ ¬ t.Harmless := by
  constructor
  · refine ⟨_, rfl, fun hmatched ↦ ?_, fun hharmless ↦ ?_⟩
    · have hsame : 0 = 1 := hmatched (1, (0, 2), [0x7F, 0x36, 0x73]) (List.mem_of_getLast? rfl)
      exact absurd hsame Nat.zero_ne_one
    · obtain ⟨response, hlast, -⟩ := hharmless _ rfl 0 (by unfold Resent; decide)
      cases hlast
  · refine ⟨_, rfl, fun hmatched ↦ ?_, fun hharmless ↦ ?_⟩
    · have hsame : 1 = 2 := hmatched (2, (1, 2), [0x7F, 0x36, 0x73]) (List.mem_of_getLast? rfl)
      exact absurd hsame (by decide)
    · obtain ⟨response, hlast, -⟩ := hharmless _ rfl 1 (by unfold Resent; decide)
      cases hlast

def timelyEvents : List Event :=
  [blockMessage 1 7, .read, blockMessage 2 8, .read, exitMessage, .read, .read]

/-- Every answer in time, up to the transfer exit; and the last block late with nothing behind it. -/
theorem timely_answers_matched :
    InTime none twoBlocks [transferExitOperation] (ECUContext.handle 8192)
        (start none twoBlocks [transferExitOperation] bcmReceiving) timelyEvents ∧
      InTime none twoBlocks [] (ECUContext.handle 8192) (start none twoBlocks [] bcmReceiving)
        [blockMessage 1 7, .read, .timeout, blockMessage 2 8, .read] := by
  have hlibrary : DocumentedLibrary none := fun _ h ↦ absurd h (by simp)
  constructor
  · have hrun : (run? none twoBlocks [transferExitOperation] (ECUContext.handle 8192)
        (start none twoBlocks [transferExitOperation] bcmReceiving) timelyEvents).map
          (fun t ↦ (t.consumed, t.sent)) =
        some ([(0, (0, 1), [0x76, 1]), (1, (1, 1), [0x76, 2]), (2, (2, 1), [0x7F, 0x37, 0x78]),
          (2, (2, 1), [0x77])], [(0, 1), (1, 1), (2, 1)]) := by decide +kernel
    obtain ⟨t, hrun, hend⟩ := Option.map_eq_some_iff.mp hrun
    obtain ⟨hconsumed, hsent⟩ := Prod.mk.inj hend
    refine (responses_matched_iff hlibrary bcmReceiving hrun).mp ⟨?_, ?_⟩
    · rw [Matched, hconsumed]
      decide
    · apply harmless_of_none
      intro call
      rw [Resent, hsent]
      simp
  · refine (responses_matched_iff hlibrary bcmReceiving rfl).mp ⟨?_, ?_⟩
    · have hconsumed : ∀ x ∈ ([(0, (0, 1), [0x76, 1]), (1, (1, 1), [0x76, 2])] :
          List (ℕ × Tag × Bytes)), x.2.1.1 = x.1 := by decide
      exact hconsumed
    · exact harmless_of_ne fun e h ↦ by cases h

end Runs

end VehicleOta.Uds.Tagged
