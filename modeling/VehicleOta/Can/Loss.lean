import VehicleOta.Can.RoundTrip

/-!
# Lost and repeated frames

Frames of one payload arrive in order, some of them more than once and some not at all.  The
number in the nibble of a frame says only its index modulo 16; the length of the payload says
that no block is missing.
-/

namespace VehicleOta.Can

open BlockLogic TraceLogic IsoTpReassembler

section Lossy

variable {payload : Bytes} {fed : List ℕ} {r : IsoTpReassembler}

/-- The reassembler is idle, or it holds blocks of frames that were fed, each at most once and in
order, the latest of frame number `next`. -/
def Partial (payload : Bytes) (fed : List ℕ) (r : IsoTpReassembler) : Prop :=
  r.expectedLength = none ∨ ∃ taken next, Receiving payload taken next r ∧
    taken.Sublist (List.range next) ∧ next ≤ tailCount payload ∧
    next ∈ fed ∧ 0 ∈ fed ∧ ∀ i ∈ taken, i + 1 ∈ fed

/-- Everything delivered so far is the payload, and nothing was before all its frames came. -/
def Faithful (payload : Bytes) (fed : List ℕ) (outputs : List (Option Bytes)) : Prop :=
  ∀ output ∈ outputs, output = none ∨
    output = some payload ∧ ∀ j ≤ tailCount payload, j ∈ fed

theorem Faithful.concat {outputs : List (Option Bytes)} (h : Faithful payload fed outputs) (j : ℕ)
    {output : Option Bytes} (houtput : output = none ∨
      output = some payload ∧ ∀ i ≤ tailCount payload, i ∈ fed ++ [j]) :
    Faithful payload (fed ++ [j]) (outputs ++ [output]) := by
  intro o ho
  rcases List.mem_append.mp ho with ho | ho
  · rcases h o ho with hnone | ⟨hsome, hall⟩
    · exact Or.inl hnone
    · exact Or.inr ⟨hsome, fun i hi ↦ List.mem_append_left _ (hall i hi)⟩
  · exact List.mem_singleton.mp ho ▸ houtput

/-- Blocks that make up the length of the payload are all its blocks. -/
theorem takenBytes_complete {taken : List ℕ} (hlong : sfMaxPayload < payload.length)
    (h : taken.Sublist (List.range (tailCount payload)))
    (hlength : payload.length ≤ (takenBytes payload taken).length) :
    taken = List.range (tailCount payload) := by
  refine eq_range_of_sublist (by decide) h ?_
  rw [takenBytes, List.length_append, List.length_take] at hlength
  rw [length_tailOf]
  rw [sfMaxPayload] at hlong
  have : min ffMaxPayload payload.length = 62 := min_eq_left hlong.le
  have hblocks : (taken.flatMap (block cfMaxPayload (tailOf payload))).length =
      (taken.flatMap (tailBlock payload)).length := rfl
  omega

/-- One more consecutive frame that is not older than those fed before. -/
theorem Partial.consecutive (h : Partial payload fed r) (hlong : sfMaxPayload < payload.length)
    {i : ℕ} (hi : i < tailCount payload) (hsorted : ∀ j ∈ fed, j ≤ i + 1) :
    Partial payload (fed ++ [i + 1]) (r.feed (consecutiveFrameOf payload i)).1 ∧
      ((r.feed (consecutiveFrameOf payload i)).2 = none ∨
        (r.feed (consecutiveFrameOf payload i)).2 = some payload ∧
          ∀ j ≤ tailCount payload, j ∈ fed ++ [i + 1]) := by
  rcases h with hidle | ⟨taken, next, hreceiving, htaken, hnext, hlatest, hfirst, hfed⟩
  · rw [consecutiveFrameOf, feed_consecutiveFrame_idle (Nat.mod_lt _ (by decide)) hidle]
    exact ⟨Or.inl hidle, Or.inl rfl⟩
  by_cases hmatch : i % 16 = next % 16
  swap
  · rw [hreceiving.feed_mismatch hmatch]
    exact ⟨Or.inl rfl, Or.inl rfl⟩
  -- the latest frame itself does not match, so that the block is a new one
  have hnew : next ≤ i := by
    have := hsorted next hlatest
    omega
  have htaken' : (taken ++ [i]).Sublist (List.range (i + 1)) := sublist_range_concat htaken hnew
  have hfed' : ∀ b ∈ taken ++ [i], b + 1 ∈ fed ++ [i + 1] := by
    intro b hb
    rcases List.mem_append.mp hb with hb | hb
    · exact List.mem_append_left _ (hfed b hb)
    · simp [List.mem_singleton.mp hb]
  by_cases hmore : (takenBytes payload (taken ++ [i])).length < payload.length
  · rw [hreceiving.feed_more hmatch hi hmore]
    refine ⟨Or.inr ⟨taken ++ [i], i + 1, hreceiving.extend hmatch, htaken', hi, by simp,
      List.mem_append_left _ hfirst, hfed'⟩, Or.inl rfl⟩
  · have hlast := not_lt.mp hmore
    have hall := takenBytes_complete hlong (htaken'.trans (List.range_sublist.mpr hi)) hlast
    have hfeed := hreceiving.feed_last [] hmatch hi (by simpa using hlast)
    rw [List.append_nil, List.append_nil, hall, takenBytes_all, List.take_length] at hfeed
    rw [hfeed]
    refine ⟨Or.inl rfl, Or.inr ⟨rfl, fun j hj ↦ ?_⟩⟩
    cases j with
    | zero => exact List.mem_append_left _ hfirst
    | succ j => exact hfed' j (by rw [hall]; exact List.mem_range.mpr hj)

theorem partial_first (hlong : sfMaxPayload < payload.length) (hlength : payload.length ≤ 0xFFF)
    (fed : List ℕ) (r : IsoTpReassembler) :
    Partial payload (fed ++ [0]) (r.feed (firstFrameOf payload)).1 ∧
      (r.feed (firstFrameOf payload)).2 = none := by
  rw [feed_firstFrameOf hlong hlength]
  exact ⟨Or.inr ⟨[], 0, receiving_begin payload r, List.nil_sublist _, Nat.zero_le _, by simp,
    by simp, fun i hi ↦ absurd hi List.not_mem_nil⟩, rfl⟩

theorem getD_framesOf_succ {payload : Bytes} {i count : ℕ} (hi : i < count) :
    (framesOf payload count).getD (i + 1) [] = consecutiveFrameOf payload i := by
  simp [framesOf, List.getD_eq_getElem?_getD, hi]

/-- What a run over frames in order leaves and delivers. -/
theorem run_lossy (hlong : sfMaxPayload < payload.length) (hlength : payload.length ≤ 0xFFF)
    (hidle : r.expectedLength = none) (indices : List ℕ)
    (hindices : ∀ j ∈ indices, j ≤ tailCount payload) (hsorted : indices.Pairwise (· ≤ ·)) :
    Partial payload indices (run (fun r frame ↦ feed frame r) r
        (indices.map fun j ↦ (framesOf payload (tailCount payload)).getD j [])).1 ∧
      Faithful payload indices (run (fun r frame ↦ feed frame r) r
        (indices.map fun j ↦ (framesOf payload (tailCount payload)).getD j [])).2 := by
  induction indices using List.reverseRecOn with
  | nil => exact ⟨Or.inl hidle, fun output houtput ↦ absurd houtput List.not_mem_nil⟩
  | append_singleton indices j ih =>
      obtain ⟨hpast, -, hlatest⟩ := List.pairwise_append.mp hsorted
      obtain ⟨hpart, hfaithful⟩ :=
        ih (fun k hk ↦ hindices k (List.mem_append_left _ hk)) hpast
      rw [List.map_append, List.map_singleton, run_concat]
      cases j with
      | zero =>
          obtain ⟨hpart', hnone⟩ := partial_first hlong hlength indices (r := _)
          exact ⟨hpart', hfaithful.concat 0 (Or.inl hnone)⟩
      | succ i =>
          have hi : i < tailCount payload := hindices (i + 1) (by simp)
          rw [getD_framesOf_succ hi]
          obtain ⟨hpart', houtput⟩ := hpart.consecutive hlong hi
            fun k hk ↦ hlatest k hk (i + 1) (by simp)
          exact ⟨hpart', hfaithful.concat (i + 1) houtput⟩

end Lossy

/-- A single frame delivers its payload each time it comes. -/
theorem run_singleFrame {payload frame : Bytes} (hframe : singleFrame payload = .ok frame)
    (hpos : 0 < payload.length) (r : IsoTpReassembler) (frames : List Bytes)
    (hframes : ∀ f ∈ frames, f = frame) :
    ∀ output ∈ (run (fun r frame ↦ feed frame r) r frames).2, output = some payload := by
  induction frames using List.reverseRecOn with
  | nil => exact fun output houtput ↦ absurd houtput List.not_mem_nil
  | append_singleton frames f ih =>
      have hfeed := feed_singleFrame hframe hpos [] (run (fun r frame ↦ feed frame r) r frames).1
      rw [List.append_nil] at hfeed
      rw [run_concat, hframes f (by simp), hfeed]
      intro output houtput
      rcases List.mem_append.mp houtput with houtput | houtput
      · exact ih (fun f hf ↦ hframes f (List.mem_append_left _ hf)) output houtput
      · exact List.mem_singleton.mp houtput

/-- Frames of one payload that come in order, some of them repeated and some lost, never make a
fresh reassembler deliver anything else; a long payload is delivered only if no frame is lost. -/
theorem lossy_delivery (payload : Bytes) (blockSize stmin : ℤ) (indices : List ℕ)
    (hpos : 0 < payload.length) (hlength : payload.length ≤ 0xFFF)
    (hindices : ∀ j ∈ indices, j < (segment payload).frames.length)
    (hsorted : indices.Pairwise (· ≤ ·)) (outputs : List (Option Bytes))
    (houtputs : outputs = (run (fun r frame ↦ feed frame r) { blockSize, stmin }
      (indices.map fun j ↦ (segment payload).frames.getD j [])).2) :
    (∀ data, some data ∈ outputs → data = payload) ∧
      (1 < (segment payload).frames.length → ∀ data, some data ∈ outputs →
        ∀ j < (segment payload).frames.length, j ∈ indices) := by
  subst houtputs
  by_cases hlong : sfMaxPayload < payload.length
  · have hcount : (framesOf payload (tailCount payload)).length = tailCount payload + 1 := by
      simp [framesOf]
    rw [segment_long hlong hlength] at hindices ⊢
    rw [hcount] at hindices ⊢
    obtain ⟨-, hfaithful⟩ := run_lossy (r := { blockSize, stmin }) hlong hlength rfl indices
      (fun j hj ↦ Nat.lt_succ_iff.mp (hindices j hj)) hsorted
    refine ⟨fun data hdata ↦ ?_, fun _ data hdata j hj ↦ ?_⟩
    · obtain ⟨heq, -⟩ := (hfaithful _ hdata).resolve_left (by simp)
      exact Option.some.inj heq
    · obtain ⟨-, hall⟩ := (hfaithful _ hdata).resolve_left (by simp)
      exact hall j (Nat.lt_succ_iff.mp hj)
  · obtain ⟨frame, hframe, -, hsegment⟩ := segment_short (not_lt.mp hlong)
    rw [hsegment] at hindices ⊢
    refine ⟨fun data hdata ↦ ?_, fun hmany ↦ absurd hmany (by simp)⟩
    refine Option.some.inj (run_singleFrame hframe hpos _ _ (fun f hf ↦ ?_) _ hdata)
    obtain ⟨j, hj, rfl⟩ := List.mem_map.mp hf
    have : j = 0 := by simpa using hindices j hj
    rw [this]
    rfl

/-- The second frame of three comes twice, so that the reassembler starts afresh. -/
theorem lossy_delivery_repeated :
    (∀ data, some data ∈ (run (fun r frame ↦ feed frame r) {}
      ([0, 1, 1, 2].map fun j ↦ (segment (List.replicate 150 7)).frames.getD j [])).2 →
        data = List.replicate 150 7) ∧
    (1 < (segment (List.replicate 150 7)).frames.length →
      ∀ data, some data ∈ (run (fun r frame ↦ feed frame r) {}
        ([0, 1, 1, 2].map fun j ↦ (segment (List.replicate 150 7)).frames.getD j [])).2 →
        ∀ j < (segment (List.replicate 150 7)).frames.length, j ∈ [0, 1, 1, 2]) := by
  have hframes : (segment (List.replicate 150 7)).frames.length = 3 := by
    rw [segment_long (by rw [List.length_replicate]; decide) (by rw [List.length_replicate]; decide)]
    simp [framesOf, tailCount, blockCount, length_tailOf, cfMaxPayload]
  exact lossy_delivery (List.replicate 150 7) 0 0 [0, 1, 1, 2]
    (by rw [List.length_replicate]; decide) (by rw [List.length_replicate]; decide)
    (by rw [hframes]; decide) (by decide) _ rfl

end VehicleOta.Can
