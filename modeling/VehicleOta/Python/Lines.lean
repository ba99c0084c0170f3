import VehicleOta.Common.Version

/-!
# Lines of a text file

What a file opened in text mode gives back for what was written, and `str.splitlines`.
-/

namespace VehicleOta

/-! ## Reading -/

/-- Every line end reads as a line feed. -/
def universalNewlines : List Char → List Char
  | '\r' :: '\n' :: rest => '\n' :: universalNewlines rest
  | '\r' :: rest => '\n' :: universalNewlines rest
  | c :: rest => c :: universalNewlines rest
  | [] => []

/-- The characters at which `str.splitlines` ends a line. -/
def isLineBoundary (c : Char) : Bool :=
  let n := c.toNat
  (0x0a ≤ n ∧ n ≤ 0x0d) ∨ (0x1c ≤ n ∧ n ≤ 0x1e) ∨ n = 0x85 ∨ n = 0x2028 ∨ n = 0x2029

/-- The loop of `splitLines` with the characters of the current line. -/
def splitLinesFrom (line : List Char) : List Char → List (List Char)
  | '\r' :: '\n' :: rest => line :: splitLinesFrom [] rest
  | c :: rest =>
      if isLineBoundary c then line :: splitLinesFrom [] rest else splitLinesFrom (line ++ [c]) rest
  | [] => if line = [] then [] else [line]

/-- `text.splitlines()` -/
def splitLines (text : List Char) : List (List Char) := splitLinesFrom [] text

/-! ## Lines without a line end -/

/-- No character ends a line. -/
def OneLine (text : List Char) : Prop := ∀ c ∈ text, isLineBoundary c = false

theorem isSpace_of_isLineBoundary {c : Char} (h : isLineBoundary c = true) : isSpace c = true := by
  rw [isLineBoundary, decide_eq_true_iff] at h
  rw [isSpace, decide_eq_true_iff]
  omega

theorem universalNewlines_of_not_mem {text : List Char} (h : '\r' ∉ text) :
    universalNewlines text = text := by
  induction text using universalNewlines.induct with
  | case1 rest ih => exact absurd List.mem_cons_self h
  | case2 rest _ ih => exact absurd List.mem_cons_self h
  | case3 c rest h₁ h₂ ih =>
      rw [universalNewlines, ih fun hmem ↦ h (List.mem_cons_of_mem c hmem)]
      · exact h₁
      · exact h₂
  | case4 => rfl

theorem splitLinesFrom_cons {c : Char} (line rest : List Char) (h : isLineBoundary c = false) :
    splitLinesFrom line (c :: rest) = splitLinesFrom (line ++ [c]) rest := by
  rw [splitLinesFrom, if_neg (by rw [h]; decide)]
  rintro rest rfl
  cases h

theorem splitLinesFrom_newline (line rest : List Char) :
    splitLinesFrom line ('\n' :: rest) = line :: splitLinesFrom [] rest := by
  rw [splitLinesFrom, if_pos (by decide)]
  intro rest h
  cases h

theorem splitLinesFrom_append {text : List Char} (h : OneLine text) (line rest : List Char) :
    splitLinesFrom line (text ++ '\n' :: rest) = (line ++ text) :: splitLinesFrom [] rest := by
  induction text generalizing line with
  | nil => rw [List.nil_append, List.append_nil, splitLinesFrom_newline]
  | cons c text ih =>
      rw [List.cons_append, splitLinesFrom_cons line _ (h c List.mem_cons_self),
        ih (fun c' hc' ↦ h c' (List.mem_cons_of_mem c hc')), List.append_assoc]
      rfl

/-- Lines that end nowhere else are split where they were joined. -/
theorem splitLines_flatMap {lines : List (List Char)} (h : ∀ line ∈ lines, OneLine line) :
    splitLines (lines.flatMap (· ++ ['\n'])) = lines := by
  induction lines with
  | nil => rfl
  | cons line lines ih =>
      rw [List.flatMap_cons, List.append_assoc, List.singleton_append, splitLines,
        splitLinesFrom_append (h line List.mem_cons_self), List.nil_append]
      exact congrArg _ (ih fun l hl ↦ h l (List.mem_cons_of_mem line hl))

/-- `"\n".join(lines + [""])` -/
theorem intercalate_concat_nil (lines : List (List Char)) :
    List.intercalate ['\n'] (lines ++ [[]]) = lines.flatMap (· ++ ['\n']) := by
  induction lines with
  | nil => rfl
  | cons line lines ih =>
      rw [List.cons_append, List.intercalate_cons_of_ne_nil (by simp), ih, List.flatMap_cons,
        List.append_assoc]

theorem oneLine_nil : OneLine [] := fun _ hc ↦ absurd hc List.not_mem_nil

theorem OneLine.append {xs ys : List Char} (hxs : OneLine xs) (hys : OneLine ys) :
    OneLine (xs ++ ys) := by
  intro c hc
  rcases List.mem_append.mp hc with hc | hc
  · exact hxs c hc
  · exact hys c hc

theorem oneLine_of_mem_splitLinesFrom {line text l : List Char} (hline : OneLine line)
    (h : l ∈ splitLinesFrom line text) : OneLine l := by
  induction line, text using splitLinesFrom.induct with
  | case1 line rest ih =>
      rw [splitLinesFrom] at h
      rcases List.mem_cons.mp h with rfl | h
      · exact hline
      · exact ih oneLine_nil h
  | case2 line c rest hcr hboundary ih =>
      rw [splitLinesFrom, if_pos hboundary] at h
      · rcases List.mem_cons.mp h with rfl | h
        · exact hline
        · exact ih oneLine_nil h
      · exact hcr
  | case3 line c rest hcr hboundary ih =>
      rw [splitLinesFrom, if_neg hboundary] at h
      · refine ih (hline.append ?_) h
        intro c' hc'
        rw [List.mem_singleton.mp hc']
        exact Bool.not_eq_true _ ▸ hboundary
      · exact hcr
  | case4 => cases h
  | case5 line hne =>
      rw [splitLinesFrom, if_neg hne] at h
      rwa [List.mem_singleton.mp h]

/-- Whatever the text, its lines have no line end inside. -/
theorem oneLine_of_mem_splitLines {text line : List Char} (h : line ∈ splitLines text) :
    OneLine line :=
  oneLine_of_mem_splitLinesFrom oneLine_nil h

end VehicleOta
