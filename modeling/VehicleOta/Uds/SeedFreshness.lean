import VehicleOta.Uds.CanSafety
import VehicleOta.Uds.Frame

/-!
# Seeds

The counter of the seeds has 32 bits, and the identifier is laid over the upper 16 of them: two
seeds differ exactly if their counters differ in a bit that the identifier leaves visible.
-/

namespace VehicleOta.Uds

open ProgrammingServer TraceLogic

/-! ## Seed numbers -/

/-- The number whose four bytes are the seed. -/
def seedNumber (identifier counter : ℕ) : ℕ := ((identifier &&& 0xFFFF) <<< 16) ||| counter

/-- The counters differ in a bit that the identifier does not set. -/
def VisiblyDiffer (identifier counter counter' : ℕ) : Prop :=
  ∃ i < 32, counter.testBit i ≠ counter'.testBit i ∧ ¬ (16 ≤ i ∧ identifier.testBit (i - 16))

instance (identifier counter counter' : ℕ) : Decidable (VisiblyDiffer identifier counter counter') :=
  inferInstanceAs (Decidable (∃ i < 32, _))

section Numbers

variable {identifier counter counter' i : ℕ}

theorem testBit_seedNumber (hi : i < 32) : (seedNumber identifier counter).testBit i =
    ((decide (16 ≤ i) && identifier.testBit (i - 16)) || counter.testBit i) := by
  have hmask : (0xFFFF : ℕ).testBit (i - 16) = decide (i - 16 < 16) :=
    Nat.testBit_two_pow_sub_one 16 (i - 16)
  rw [seedNumber, Nat.testBit_or, Nat.testBit_shiftLeft, Nat.testBit_and, hmask,
    decide_eq_true (show i - 16 < 16 by omega), Bool.and_true]

theorem seedNumber_lt (h : counter < 2 ^ 32) : seedNumber identifier counter < 2 ^ 32 := by
  apply Nat.or_lt_two_pow
  · have hle : identifier &&& 0xFFFF ≤ 0xFFFF := Nat.and_le_right
    rw [Nat.shiftLeft_eq]
    omega
  · exact h

theorem seedNumber_ne_iff (h : counter < 2 ^ 32) (h' : counter' < 2 ^ 32) :
    seedNumber identifier counter ≠ seedNumber identifier counter' ↔
      VisiblyDiffer identifier counter counter' := by
  constructor
  · intro hne
    obtain ⟨i, hbit⟩ := Nat.exists_testBit_ne_of_ne hne
    have hi : i < 32 := by
      by_contra hge
      have hpow : 2 ^ 32 ≤ 2 ^ i := Nat.pow_le_pow_right (by decide) (not_lt.mp hge)
      rw [Nat.testBit_lt_two_pow ((seedNumber_lt h).trans_le hpow),
        Nat.testBit_lt_two_pow ((seedNumber_lt h').trans_le hpow)] at hbit
      exact hbit rfl
    rw [testBit_seedNumber hi, testBit_seedNumber hi] at hbit
    refine ⟨i, hi, fun hsame ↦ hbit (by rw [hsame]), ?_⟩
    rintro ⟨hlow, hmask⟩
    rw [hmask, decide_eq_true hlow] at hbit
    exact hbit rfl
  · rintro ⟨i, hi, hbit, hvisible⟩ heq
    have hsame := congrArg (fun n ↦ n.testBit i) heq
    simp only [testBit_seedNumber hi] at hsame
    have hmask : (decide (16 ≤ i) && identifier.testBit (i - 16)) = false := by
      rw [Bool.and_eq_false_iff, decide_eq_false_iff_not, ← Bool.not_eq_true]
      exact not_and_or.mp hvisible
    rw [hmask, Bool.false_or, Bool.false_or] at hsame
    exact hbit hsame

end Numbers

/-! ## Seeds and keys -/

/-- The seed of the request with the given number, counted from 0. -/
def seedOf (identifier n : ℕ) : Bytes := intToBytes 4 (seedNumber identifier ((n + 1) % 2 ^ 32))

theorem seedOf_ne_iff {identifier i j : ℕ} : seedOf identifier i ≠ seedOf identifier j ↔
    VisiblyDiffer identifier ((i + 1) % 2 ^ 32) ((j + 1) % 2 ^ 32) := by
  have hlt : ∀ n, (n + 1) % 2 ^ 32 < 2 ^ 32 := fun n ↦ Nat.mod_lt _ (by decide)
  rw [← seedNumber_ne_iff (hlt i) (hlt j), not_iff_not, seedOf, seedOf]
  constructor
  · intro h
    have hnumbers := congrArg intFromBytes h
    rwa [intFromBytes_intToBytes 4 _ (seedNumber_lt (hlt i)),
      intFromBytes_intToBytes 4 _ (seedNumber_lt (hlt j))] at hnumbers
  · intro h
    rw [h]

theorem zipWith_xor_cancel (seed key : Bytes) (h : seed.length ≤ key.length) :
    List.zipWith (· ^^^ ·) (List.zipWith (· ^^^ ·) seed key) key = seed := by
  induction seed generalizing key with
  | nil => rfl
  | cons b seed ih =>
      cases key with
      | nil => cases h
      | cons k key =>
          rw [List.zipWith_cons_cons, List.zipWith_cons_cons, ih key (Nat.le_of_succ_le_succ h),
            UInt8.xor_assoc, UInt8.xor_self, UInt8.xor_zero]

/-- On four bytes the demo derivation loses nothing. -/
theorem deriveDemoSecurityKey_inj {seed seed' : Bytes} (h : seed.length = 4)
    (h' : seed'.length = 4) :
    deriveDemoSecurityKey seed = deriveDemoSecurityKey seed' ↔ seed = seed' := by
  have hderive : ∀ s : Bytes, s.length = 4 →
      deriveDemoSecurityKey s = List.zipWith (· ^^^ ·) s demoSecurityXorKey := by
    intro s hs
    have hkey : repeatKey demoSecurityXorKey 4 = demoSecurityXorKey := by decide
    rw [deriveDemoSecurityKey, if_neg (by cases s <;> simp_all), hs, hkey]
  constructor
  · intro heq
    rw [hderive seed h, hderive seed' h'] at heq
    rw [← zipWith_xor_cancel seed demoSecurityXorKey h.le, heq,
      zipWith_xor_cancel seed' demoSecurityXorKey h'.le]
  · intro heq
    rw [heq]

/-! ## Issued seeds -/

def Action.seed? : Action → Option Bytes
  | .send (serviceId :: subfunction :: seed) =>
      if serviceId = positiveResponseSid sidSecurityAccess ∧
          subfunction = securityAccessRequestSeed then some seed
      else none
  | _ => none

/-- The seeds in the responses to `SecurityAccess`. -/
def Exchange.issuedSeeds (x : Exchange) : List Bytes :=
  if x.request.head? = some sidSecurityAccess then x.actions.filterMap Action.seed? else []

section Step

variable {σ : Type} [ProgrammingServer σ] {s t : σ} {r : Request} {serviceId : UInt8}

/-- The state still counts its seeds from the same number for the same identifier. -/
def SameSeeds (s t : σ) : Prop :=
  (base t).seedCounter = (base s).seedCounter ∧ identifier t = identifier s

/-- The request issued no seed, or the next one. -/
inductive SeedStep (s t : σ) (x : Exchange) : Prop where
  | kept (h : SameSeeds s t) (hx : x.issuedSeeds = [])
  | issued (hcounter : (base t).seedCounter = nextSeedCounter (base s))
      (hidentifier : identifier t = identifier s)
      (hx : x.issuedSeeds = [generateSeed (identifier s) (base s)])

theorem SeedStep.of_start {u : σ} {x : Exchange} (h : SameSeeds s u) (hu : SeedStep u t x) :
    SeedStep s t x := by
  cases hu with
  | kept hkept hx => exact .kept ⟨hkept.1.trans h.1, hkept.2.trans h.2⟩ hx
  | issued hcounter hidentifier hx =>
      refine .issued ?_ (hidentifier.trans h.2) ?_
      · rw [hcounter, nextSeedCounter, nextSeedCounter, h.1]
      · rw [hx, generateSeed, generateSeed, nextSeedCounter, nextSeedCounter, h.1, h.2]

theorem issuedSeeds_of_head {x : Exchange} (h : x.request.head? ≠ some sidSecurityAccess) :
    x.issuedSeeds = [] := if_neg h

theorem issuedSeeds_of_actions {x : Exchange}
    (h : ∀ a ∈ x.actions, a.seed? = none) : x.issuedSeeds = [] := by
  unfold Exchange.issuedSeeds
  split
  · exact List.filterMap_eq_nil_iff.mpr h
  · rfl

theorem seed?_negative (serviceId code : UInt8) :
    Action.seed? (.send [sidNegativeResponse, serviceId, code]) = none := by
  rw [Action.seed?, if_neg]
  rintro ⟨h, -⟩
  exact absurd h (by decide)

theorem seedStep_negative {code : UInt8} (h : SameSeeds s t) :
    SeedStep s t (exchange r (negative serviceId code t)) := by
  refine .kept h (issuedSeeds_of_actions fun a ha ↦ ?_)
  rw [List.mem_singleton.mp ha]
  exact seed?_negative _ _

section Access

variable (hframe : Frame (SameSeeds : σ → σ → Prop))
  (hupdate : ∀ (f : ProgrammingState → ProgrammingState) (s : σ),
    identifier (update f s) = identifier s)

include hupdate

theorem seedStep_requestSeed (hhead : r.payload.head? = some sidSecurityAccess) :
    SeedStep s (requestSeed r s).state (exchange r (requestSeed r s)) := by
  unfold requestSeed
  split
  · exact seedStep_negative ⟨rfl, rfl⟩
  · refine .issued ?_ (hupdate _ s) ?_
    · rw [reply_state, base_update]
      rfl
    · rw [Exchange.issuedSeeds, exchange, if_pos hhead]
      rfl

theorem seedStep_sendKey : SeedStep s (sendKey r s).state (exchange r (sendKey r s)) := by
  have hsame : ∀ (f : ProgrammingState → ProgrammingState) (s : σ),
      (f (base s)).seedCounter = (base s).seedCounter → SameSeeds s (update f s) := by
    intro f s hf
    exact ⟨by rw [base_update, hf], hupdate f s⟩
  unfold sendKey
  split
  · exact seedStep_negative ⟨rfl, rfl⟩
  · cases deriveSecurityKey r.security (base s).pendingSeed with
    | error e => exact .kept ⟨rfl, rfl⟩ (issuedSeeds_of_actions fun a ha ↦ (by cases ha))
    | ok key =>
        dsimp only
        split
        · have hcounted := hsame ProgrammingState.countFailure s rfl
          unfold rejectKey
          dsimp only
          split
          · have hlocked := hsame (.lockSecurity (r.securityClock + securityLockoutSeconds))
              (update ProgrammingState.countFailure s) rfl
            exact seedStep_negative ⟨hlocked.1.trans hcounted.1, hlocked.2.trans hcounted.2⟩
          · exact seedStep_negative hcounted
        · refine .kept (hsame ProgrammingState.unlock s rfl) (issuedSeeds_of_actions fun a ha ↦ ?_)
          rw [List.mem_singleton.mp ha]
          rfl

include hframe

theorem seedStep_securityAccess (hhead : r.payload.head? = some sidSecurityAccess) :
    SeedStep s (securityAccess r s).state (exchange r (securityAccess r s)) := by
  unfold securityAccess requireProgrammingSession
  rcases expireSessionIfNeeded_cases r s with ⟨-, he⟩ | ⟨-, he⟩
  · simp only [he]
    split
    · exact seedStep_negative ⟨rfl, rfl⟩
    · refine SeedStep.of_start (hframe.touchSession r.touchClock s) ?_
      split_ifs
      · exact seedStep_negative ⟨rfl, rfl⟩
      · exact seedStep_requestSeed hupdate hhead
      · exact seedStep_sendKey hupdate
      · exact seedStep_negative ⟨rfl, rfl⟩
  · simp only [he]
    rw [if_pos (by rw [currentSession_expired]; decide)]
    refine .kept (hframe.close s) (issuedSeeds_of_actions fun a ha ↦ ?_)
    rcases List.mem_cons.mp ha with rfl | ha
    · rfl
    · rw [List.mem_singleton.mp ha]
      exact seed?_negative _ _

end Access

/-! ## Runs -/

/-- The seeds that a run issues, in order. -/
def issuedSeeds (handle : Request → σ → Outcome σ) (s : σ) (requests : List Request) : List Bytes :=
  (run (step handle) s requests).2.flatMap Exchange.issuedSeeds

/-- The state has counted the seeds of the trace, and they are the first ones of its identifier. -/
structure SeedsCounted (n : ℕ) (s : σ) (trace : List Exchange) : Prop where
  identifier : identifier s = n
  counter : (base s).seedCounter = (trace.flatMap Exchange.issuedSeeds).length % 2 ^ 32
  seeds : trace.flatMap Exchange.issuedSeeds =
    (List.range (trace.flatMap Exchange.issuedSeeds).length).map (seedOf n)

theorem SeedsCounted.step {n : ℕ} {trace : List Exchange} {x : Exchange}
    (h : SeedsCounted n s trace) (hx : SeedStep s t x) : SeedsCounted n t (trace ++ [x]) := by
  have hflat : (trace ++ [x]).flatMap Exchange.issuedSeeds =
      trace.flatMap Exchange.issuedSeeds ++ x.issuedSeeds := by
    rw [List.flatMap_append, List.flatMap_singleton]
  cases hx with
  | kept hkept hnone =>
      rw [hnone, List.append_nil] at hflat
      refine ⟨hkept.2.trans h.identifier, ?_, ?_⟩
      · rw [hflat, hkept.1, h.counter]
      · rw [hflat]
        exact h.seeds
  | issued hcounter hidentifier hone =>
      have hnext : nextSeedCounter (base s) =
          ((trace.flatMap Exchange.issuedSeeds).length + 1) % 2 ^ 32 := by
        rw [nextSeedCounter, h.counter, show 0xFFFFFFFF = 2 ^ 32 - 1 from rfl,
          Nat.and_two_pow_sub_one_eq_mod, Nat.mod_add_mod]
      have hseed : generateSeed (ProgrammingServer.identifier s) (base s) =
          seedOf n (trace.flatMap Exchange.issuedSeeds).length := by
        rw [seedOf, ← hnext, h.identifier.symm]
        rfl
      rw [hone, hseed] at hflat
      have hlength : ((trace ++ [x]).flatMap Exchange.issuedSeeds).length =
          (trace.flatMap Exchange.issuedSeeds).length + 1 := by
        rw [hflat, List.length_append, List.length_singleton]
      refine ⟨hidentifier.trans h.identifier, ?_, ?_⟩
      · rw [hcounter, hnext, hlength]
      · rw [hlength, List.range_succ, List.map_append, ← h.seeds, hflat]
        rfl

theorem seedsCounted_run {handle : Request → σ → Outcome σ}
    (h : ∀ r s, SeedStep s (handle r s).state (exchange r (handle r s))) (hs : base s = {})
    (requests : List Request) : SeedsCounted (identifier s) (run (step handle) s requests).1
      (run (step handle) s requests).2 := by
  refine run_invariant (A := fun _ _ _ ↦ True) (I := SeedsCounted (identifier s)) ?_
    (fun t past r hcounted _ ↦ hcounted.step (h r t)) requests
    (admissible_of_forall (fun _ _ _ ↦ trivial) _ _)
  exact ⟨rfl, by rw [hs]; rfl, rfl⟩

theorem getElem?_issuedSeeds {handle : Request → σ → Outcome σ}
    (h : ∀ r s, SeedStep s (handle r s).state (exchange r (handle r s))) (hs : base s = {})
    {requests : List Request} {i : ℕ} {seed : Bytes}
    (hi : (issuedSeeds handle s requests)[i]? = some seed) : seed = seedOf (identifier s) i := by
  have hseeds := (seedsCounted_run h hs requests).seeds
  rw [issuedSeeds, hseeds, List.getElem?_map, Option.map_eq_some_iff] at hi
  obtain ⟨k, hk, rfl⟩ := hi
  obtain ⟨hlt, rfl⟩ := List.getElem?_eq_some_iff.mp hk
  rw [List.getElem_range]

/-- Every seed is the number of its request in four bytes, and two of them differ, with the keys
of the demo derivation, exactly if the counters differ visibly. -/
def FreshSeeds (identifier : ℕ) (seeds : List Bytes) : Prop :=
  ∀ i j seed seed', seeds[i]? = some seed → seeds[j]? = some seed' →
    (seed.length = 4 ∧ intFromBytes seed = seedNumber identifier ((i + 1) % 2 ^ 32)) ∧
      (seed ≠ seed' ∧ deriveDemoSecurityKey seed ≠ deriveDemoSecurityKey seed' ↔
        VisiblyDiffer identifier ((i + 1) % 2 ^ 32) ((j + 1) % 2 ^ 32))

theorem freshSeeds_of_seedStep {handle : Request → σ → Outcome σ}
    (h : ∀ r s, SeedStep s (handle r s).state (exchange r (handle r s))) (hs : base s = {})
    (requests : List Request) : FreshSeeds (identifier s) (issuedSeeds handle s requests) := by
  intro i j seed seed' hi hj
  obtain rfl := getElem?_issuedSeeds h hs hi
  obtain rfl := getElem?_issuedSeeds h hs hj
  have hlength : ∀ n, (seedOf (identifier s) n).length = 4 := fun n ↦ intToBytes_length _ _
  refine ⟨⟨hlength i, intFromBytes_intToBytes 4 _ (seedNumber_lt (Nat.mod_lt _ (by decide)))⟩, ?_⟩
  rw [Ne, Ne, deriveDemoSecurityKey_inj (hlength i) (hlength j), and_self]
  exact seedOf_ne_iff

end Step

/-! ## The two servers -/

namespace UDSCanProgrammer

theorem frame_sameSeeds : Frame (SameSeeds : UDSCanProgrammer → UDSCanProgrammer → Prop) where
  refl _ := ⟨rfl, rfl⟩
  trans h h' := ⟨h'.1.trans h.1, h'.2.trans h.2⟩
  reset _ := ⟨rfl, rfl⟩
  setSession _ _ := ⟨rfl, rfl⟩
  touchSession _ _ := ⟨rfl, rfl⟩
  markActivation _ := ⟨rfl, rfl⟩
  receive _ _ := ⟨rfl, rfl⟩
  startInstall _ := ⟨rfl, rfl⟩

theorem seedStep_handleUds (r : Request) (p : UDSCanProgrammer) :
    SeedStep p (handleUds r p).state (exchange r (handleUds r p)) := by
  by_cases hhead : r.payload.head? = some sidSecurityAccess
  · obtain ⟨rest, hpayload⟩ := List.head?_eq_some_iff.mp hhead
    unfold handleUds
    rw [hpayload]
    dsimp only
    split
    · exact seedStep_negative ⟨rfl, rfl⟩
    · split
      · exact seedStep_negative ⟨rfl, rfl⟩
      · exact seedStep_securityAccess frame_sameSeeds (fun _ _ ↦ rfl) hhead
  · exact .kept (frame_sameSeeds.handleUds (fun _ _ ↦ ⟨rfl, rfl⟩) (fun _ _ ↦ ⟨rfl, rfl⟩)
      (fun _ _ ↦ ⟨rfl, rfl⟩) hhead) (issuedSeeds_of_head hhead)

end UDSCanProgrammer

namespace ECUContext

theorem frame_sameSeeds : Frame (SameSeeds : ECUContext → ECUContext → Prop) where
  refl _ := ⟨rfl, rfl⟩
  trans h h' := ⟨h'.1.trans h.1, h'.2.trans h.2⟩
  reset _ := ⟨rfl, rfl⟩
  setSession _ _ := ⟨rfl, rfl⟩
  touchSession _ _ := ⟨rfl, rfl⟩
  markActivation _ := ⟨rfl, rfl⟩
  receive _ _ := ⟨rfl, rfl⟩
  startInstall _ := ⟨rfl, rfl⟩

theorem seedStep_handle (blockLength : ℕ) (r : Request) (ecu : ECUContext) :
    SeedStep ecu (handle blockLength r ecu).state (exchange r (handle blockLength r ecu)) := by
  by_cases hhead : r.payload.head? = some sidSecurityAccess
  · obtain ⟨rest, hpayload⟩ := List.head?_eq_some_iff.mp hhead
    unfold handle handleRawUdsMessage
    rw [hpayload]
    exact seedStep_securityAccess frame_sameSeeds (fun _ _ ↦ rfl) hhead
  · exact .kept (frame_sameSeeds.handle (fun _ _ ↦ ⟨rfl, rfl⟩) (fun _ _ ↦ ⟨rfl, rfl⟩)
      (fun _ _ ↦ ⟨rfl, rfl⟩) hhead) (issuedSeeds_of_head hhead)

end ECUContext

/-- Whatever the requests, each of the two servers issues seeds of four bytes, and two of them
differ exactly if the counters of their requests differ in a bit that the identifier, laid over
the upper half of the seed, does not set. -/
theorem seeds_fresh_iff (ecuId : ℕ) (ecuKey firmwareFile targetVersion : String)
    (logicalAddress : ℕ) (profile : Profile) (blockLength : ℕ) (requests : List Request) :
    FreshSeeds ecuId (issuedSeeds UDSCanProgrammer.handleUds
        (.initial ecuId ecuKey firmwareFile targetVersion) requests) ∧
      FreshSeeds logicalAddress (issuedSeeds (ECUContext.handle blockLength)
        (.initial ecuKey logicalAddress profile) requests) :=
  ⟨freshSeeds_of_seedStep UDSCanProgrammer.seedStep_handleUds rfl requests,
    freshSeeds_of_seedStep (ECUContext.seedStep_handle blockLength) rfl requests⟩

/-! ## A seed that comes again -/

def seedRequest : Request := { payload := [0x27, 0x01] }

/-- A programming session that issues a seed to every request, as long as the clock stands still. -/
structure IssuesSeeds (p : UDSCanProgrammer) : Prop where
  session : p.base.currentSession = defaultSessionProgramming
  started : p.base.sessionStartedAt = 0
  free : p.base.securityLockedUntil = 0

theorem IssuesSeeds.step {p : UDSCanProgrammer} (h : IssuesSeeds p) :
    IssuesSeeds (UDSCanProgrammer.handleUds seedRequest p).state ∧
      (exchange seedRequest (UDSCanProgrammer.handleUds seedRequest p)).issuedSeeds.length = 1 := by
  have hunexpired : (base p).sessionExpired seedRequest.expiryClock = false := by
    have hstarted : (base p).sessionStartedAt = 0 := h.started
    simp [ProgrammingState.sessionExpired, hstarted]
  have hserved : UDSCanProgrammer.handleUds seedRequest p =
      requestSeed seedRequest (update (.touchSession 0) p) := by
    have haccess : UDSCanProgrammer.handleUds seedRequest p = securityAccess seedRequest p := rfl
    rw [haccess, securityAccess,
      requireProgrammingSession_of_programming _ hunexpired h.session]
    rfl
  have hfree : ¬ seedRequest.securityClock <
      (base (update (.touchSession 0) p)).securityLockedUntil := by
    have hlocked : (base (update (.touchSession 0) p)).securityLockedUntil = 0 := h.free
    rw [hlocked]
    exact lt_irrefl 0
  rw [hserved, requestSeed, if_neg hfree]
  exact ⟨⟨h.session, rfl, h.free⟩, rfl⟩

/-- A programming session with `n` requests for a seed. -/
def seedRequests (n : ℕ) : List Request :=
  { payload := [0x10, 0x02] } :: List.replicate n seedRequest

theorem issuedSeeds_seedRequests (n : ℕ) :
    IssuesSeeds (run (step UDSCanProgrammer.handleUds) (.initial 0x202 "bcm" "bcm_v2.bin" "2.0.0")
        (seedRequests n)).1 ∧
      (issuedSeeds UDSCanProgrammer.handleUds (.initial 0x202 "bcm" "bcm_v2.bin" "2.0.0")
        (seedRequests n)).length = n := by
  induction n with
  | zero => exact ⟨⟨rfl, rfl, rfl⟩, rfl⟩
  | succ n ih =>
      have hnext := ih.1.step
      have hmore : seedRequests (n + 1) = seedRequests n ++ [seedRequest] := by
        rw [seedRequests, List.replicate_succ', seedRequests, List.cons_append]
      rw [issuedSeeds, hmore, run_concat, List.flatMap_append, List.flatMap_singleton,
        List.length_append]
      exact ⟨hnext.1, congrArg₂ (· + ·) ih.2 hnext.2⟩

/-- The BCM has the identifier 0x202, which hides bit 17 of the counter. -/
theorem seed_repeats :
    ∃ requests seed,
      (issuedSeeds UDSCanProgrammer.handleUds (.initial 0x202 "bcm" "bcm_v2.bin" "2.0.0")
          requests)[0]? = some seed ∧
        (issuedSeeds UDSCanProgrammer.handleUds (.initial 0x202 "bcm" "bcm_v2.bin" "2.0.0")
          requests)[0x20000]? = some seed := by
  have hlength := (issuedSeeds_seedRequests 0x20001).2
  have hget : ∀ i < 0x20001,
      (issuedSeeds UDSCanProgrammer.handleUds (.initial 0x202 "bcm" "bcm_v2.bin" "2.0.0")
        (seedRequests 0x20001))[i]? = some (seedOf 0x202 i) := by
    intro i hi
    have hsome := List.getElem?_eq_getElem (hi.trans_eq hlength.symm)
    rw [hsome, getElem?_issuedSeeds UDSCanProgrammer.seedStep_handleUds rfl hsome]
    rfl
  have hsame : seedOf 0x202 0x20000 = seedOf 0x202 0 := by
    by_contra hne
    exact absurd (seedOf_ne_iff.mp hne) (by decide)
  refine ⟨seedRequests 0x20001, seedOf 0x202 0, hget 0 (by decide), ?_⟩
  rw [hget 0x20000 (by decide), hsame]

end VehicleOta.Uds
