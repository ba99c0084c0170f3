import VehicleOta.Common.VersionText
import VehicleOta.Python.Lines

/-!
# The environment file

`write_env_file` of `common/active_scenario.py` quotes the values for a shell; `_parse_env_file`
of `democtl/cli.py` reads the file line by line.
-/

namespace VehicleOta

/-! ## The writer -/

def singleQuote : Char := '\x27'
def doubleQuote : Char := '\x22'

/-- The characters that `shlex.quote` leaves alone: ASCII letters, digits and some signs. -/
def isSafe (c : Char) : Bool :=
  let n := c.toNat
  (0x30 ≤ n ∧ n ≤ 0x39) ∨ (0x41 ≤ n ∧ n ≤ 0x5a) ∨ (0x61 ≤ n ∧ n ≤ 0x7a) ∨
    c ∈ ['_', '@', '%', '+', '=', ':', ',', '.', '/', '-']

/-- `s.replace("'", "'\"'\"'")` -/
def escapeQuotes (text : List Char) : List Char :=
  text.flatMap fun c ↦
    if c = singleQuote then [singleQuote, doubleQuote, singleQuote, doubleQuote, singleQuote]
    else [c]

/-- `shlex.quote` -/
def shlexQuote (text : List Char) : List Char :=
  if text = [] then [singleQuote, singleQuote]
  else if text.all isSafe then text
  else singleQuote :: (escapeQuotes text ++ [singleQuote])

def exportWord : List Char := "export ".toList

def exportLine (key value : String) : List Char :=
  exportWord ++ (key.toList ++ '=' :: shlexQuote value.toList)

/-- `sorted(env)` -/
def sortedKeys (env : Dict String String) : List String :=
  env.keys.mergeSort fun a b ↦ decide (a ≤ b)

/-- The export lines; every key has a value. -/
def exportLines (env : Dict String String) : List (List Char) :=
  (sortedKeys env).map fun key ↦ exportLine key ((env.get? key).getD "")

def headerLines : List (List Char) :=
  ["#!/usr/bin/env bash".toList, "# Generated from the canonical active scenario state".toList,
    "set -a".toList]

def fileLines (env : Dict String String) : List (List Char) :=
  headerLines ++ exportLines env ++ ["set +a".toList]

/-- The text that `write_env_file` writes. -/
def writeEnvFile (env : Dict String String) : List Char :=
  List.intercalate ['\n'] (fileLines env ++ [[]])

/-! ## The reader -/

/-- `_shell_unquote` -/
def shellUnquote (value : List Char) : List Char :=
  let value := strip value
  if 2 ≤ value.length ∧ value.head? = value.getLast? ∧
      (value.head? = some singleQuote ∨ value.head? = some doubleQuote) then
    value.tail.dropLast
  else value

/-- The entry of a line, if it has one. -/
def parseLine (rawLine : List Char) : Option (String × String) :=
  let line := strip rawLine
  if exportWord.isPrefixOf line then
    let key := (line.drop 7).takeWhile (· ≠ '=')
    let rest := (line.drop 7).dropWhile (· ≠ '=')
    if key = [] ∨ rest = [] then none
    else some (String.ofList key, String.ofList (shellUnquote rest.tail))
  else none

/-- `_parse_env_file`; there is no text if the file does not exist. -/
def parseEnvFile (path : String) : Option (List Char) → Except PyError (Dict String String)
  | none => .error (.fileNotFoundError ("Environment file not found: " ++ path))
  | some text => .ok (Dict.ofPairs ((splitLines (universalNewlines text)).filterMap parseLine))

/-! ## Quoting -/

theorem length_escapeQuotes (text : List Char) :
    (escapeQuotes text).length = text.length + 4 * text.count singleQuote := by
  induction text with
  | nil => rfl
  | cons c text ih =>
      rw [escapeQuotes, List.flatMap_cons, List.length_append, ← escapeQuotes, ih,
        List.length_cons, List.count_cons]
      by_cases hc : c = singleQuote
      · rw [if_pos hc, if_pos (beq_iff_eq.mpr hc), List.length_cons, List.length_cons]
        simp only [List.length_cons, List.length_nil]
        omega
      · rw [if_neg hc, if_neg (by rwa [beq_iff_eq]), List.length_singleton]
        omega

theorem escapeQuotes_eq_iff (text : List Char) :
    escapeQuotes text = text ↔ singleQuote ∉ text := by
  constructor
  · intro h hmem
    have hlength := length_escapeQuotes text
    have hcount := List.count_pos_iff.mpr hmem
    rw [h] at hlength
    omega
  · intro h
    induction text with
    | nil => rfl
    | cons c text ih =>
        rw [List.mem_cons, not_or] at h
        rw [escapeQuotes, List.flatMap_cons, ← escapeQuotes, ih h.2, if_neg fun hc ↦ h.1 hc.symm]
        rfl

theorem toNat_of_isSafe {c : Char} (h : isSafe c = true) :
    0x25 ≤ c.toNat ∧ c.toNat ≤ 0x7a ∧ c.toNat ≠ 0x27 := by
  rcases of_decide_eq_true h with h | h | h | h
  · omega
  · omega
  · omega
  · simp only [List.mem_cons, List.not_mem_nil, or_false] at h
    rcases h with rfl | rfl | rfl | rfl | rfl | rfl | rfl | rfl | rfl | rfl <;> decide

theorem isSpace_of_isSafe {c : Char} (h : isSafe c = true) : isSpace c = false := by
  obtain ⟨hlow, hhigh, -⟩ := toNat_of_isSafe h
  apply decide_eq_false
  omega

theorem ne_singleQuote_of_isSafe {c : Char} (h : isSafe c = true) : c ≠ singleQuote := by
  rintro rfl
  exact (toNat_of_isSafe h).2.2 rfl

theorem ne_doubleQuote_of_isSafe {c : Char} (h : isSafe c = true) : c ≠ doubleQuote := by
  rintro rfl
  exact absurd (toNat_of_isSafe h).1 (by decide)

theorem strip_of_ends {c d : Char} (text : List Char) (hc : isSpace c = false)
    (hd : isSpace d = false) : strip (c :: (text ++ [d])) = c :: (text ++ [d]) := by
  rw [strip, List.dropWhile_cons, if_neg (by rw [hc]; decide), List.reverse_cons,
    List.reverse_append, List.reverse_singleton, List.cons_append, List.cons_append,
    List.dropWhile_cons, if_neg (by rw [hd]; decide)]
  simp

theorem isSpace_singleQuote : isSpace singleQuote = false := by decide

/-- One pair of quotes is taken off, whatever stands between them. -/
theorem shellUnquote_quoted (inner : List Char) :
    shellUnquote (singleQuote :: (inner ++ [singleQuote])) = inner := by
  rw [shellUnquote, strip_of_ends inner isSpace_singleQuote isSpace_singleQuote]
  rw [if_pos]
  · rw [List.tail_cons, List.dropLast_concat]
  · refine ⟨?_, ?_, .inl rfl⟩
    · rw [List.length_cons, List.length_append, List.length_singleton]
      omega
    · rw [← List.cons_append, List.getLast?_concat]
      rfl

theorem shellUnquote_safe {text : List Char} (h : ∀ c ∈ text, isSafe c = true) :
    shellUnquote text = text := by
  rw [shellUnquote, strip_of_forall fun c hc ↦ isSpace_of_isSafe (h c hc)]
  apply if_neg
  rintro ⟨-, -, hquote | hquote⟩
  · exact ne_singleQuote_of_isSafe (h _ (List.mem_of_mem_head? hquote)) rfl
  · exact ne_doubleQuote_of_isSafe (h _ (List.mem_of_mem_head? hquote)) rfl

/-- The reader undoes the quoting just when there is no single quote to escape. -/
theorem shellUnquote_shlexQuote_iff (text : List Char) :
    shellUnquote (shlexQuote text) = text ↔ singleQuote ∉ text := by
  rw [shlexQuote]
  split
  · rename_i hnil
    rw [hnil]
    exact ⟨fun _ ↦ List.not_mem_nil, fun _ ↦ shellUnquote_quoted []⟩
  · split
    · rename_i hsafe
      have hsafe' := List.all_eq_true.mp hsafe
      refine ⟨fun _ hmem ↦ ?_, fun _ ↦ shellUnquote_safe hsafe'⟩
      exact ne_singleQuote_of_isSafe (hsafe' _ hmem) rfl
    · rw [shellUnquote_quoted, escapeQuotes_eq_iff]

/-- A quoted text does not end in white space. -/
theorem shlexQuote_eq_concat (text : List Char) :
    ∃ front last, shlexQuote text = front ++ [last] ∧ isSpace last = false := by
  rw [shlexQuote]
  split
  · exact ⟨[singleQuote], singleQuote, rfl, isSpace_singleQuote⟩
  · rename_i hne
    split
    · rename_i hsafe
      refine ⟨text.dropLast, text.getLast hne, (List.dropLast_concat_getLast hne).symm, ?_⟩
      exact isSpace_of_isSafe (List.all_eq_true.mp hsafe _ (List.getLast_mem hne))
    · exact ⟨singleQuote :: escapeQuotes text, singleQuote, rfl, isSpace_singleQuote⟩

/-! ## Lines -/

/-- A variable name without `=`, white space and quotes. -/
structure ValidName (key : String) : Prop where
  ne_empty : key ≠ ""
  no_equals : '=' ∉ key.toList
  no_space : ∀ c ∈ key.toList, isSpace c = false
  no_quote : singleQuote ∉ key.toList ∧ doubleQuote ∉ key.toList

/-- What comes back for a value on a line of its own. -/
def readBack (value : String) : String :=
  String.ofList (shellUnquote (shlexQuote value.toList))

theorem parseLine_exportLine {key : String} (h : ValidName key) (value : String) :
    parseLine (exportLine key value) = some (key, readBack value) := by
  obtain ⟨front, last, hquote, hlast⟩ := shlexQuote_eq_concat value.toList
  have hexport : exportWord = ['e', 'x', 'p', 'o', 'r', 't', ' '] := rfl
  have hline : strip (exportLine key value) = exportLine key value := by
    have hends := strip_of_ends (c := 'e')
      (['x', 'p', 'o', 'r', 't', ' '] ++ (key.toList ++ '=' :: front)) (by decide) hlast
    simpa [exportLine, hexport, hquote] using hends
  have hprefix : exportWord.isPrefixOf (exportLine key value) = true := by
    rw [exportLine, List.isPrefixOf_iff_prefix]
    exact List.prefix_append _ _
  have hdrop : (exportLine key value).drop 7 =
      key.toList ++ '=' :: shlexQuote value.toList := by
    have hlength : exportWord.length = 7 := by simp [hexport]
    rw [exportLine, List.drop_left' hlength]
  have hkey : ∀ c ∈ key.toList, decide (c ≠ '=') = true := by
    intro c hc
    apply decide_eq_true
    rintro rfl
    exact h.no_equals hc
  have hne : key.toList ≠ [] := fun hnil ↦ h.ne_empty (String.toList_eq_nil_iff.mp hnil)
  rw [parseLine, hline, if_pos hprefix, hdrop, List.takeWhile_append_of_pos hkey,
    List.dropWhile_append_of_pos hkey, List.takeWhile_cons, List.dropWhile_cons]
  simp [hne, readBack]

theorem mem_of_mem_strip {c : Char} {text : List Char} (h : c ∈ strip text) : c ∈ text := by
  have hreverse := (List.dropWhile_sublist isSpace).subset (List.mem_reverse.mp h)
  exact (List.dropWhile_sublist isSpace).subset (List.mem_reverse.mp hreverse)

theorem mem_of_mem_shellUnquote {c : Char} {value : List Char} (h : c ∈ shellUnquote value) :
    c ∈ value := by
  rw [shellUnquote] at h
  apply mem_of_mem_strip
  split at h
  · exact List.mem_of_mem_tail (List.mem_of_mem_dropLast h)
  · exact h

/-- Nothing is read that the line does not hold. -/
theorem mem_of_parseLine {line : List Char} {key value : String}
    (h : parseLine line = some (key, value)) : ∀ c ∈ value.toList, c ∈ line := by
  intro c hc
  rw [parseLine] at h
  split at h
  · dsimp only at h
    split at h
    · cases h
    · cases h
      rw [String.toList_ofList] at hc
      have hrest := List.mem_of_mem_tail (mem_of_mem_shellUnquote hc)
      have hdrop := (List.dropWhile_sublist _).subset hrest
      exact mem_of_mem_strip (List.mem_of_mem_drop hdrop)
  · cases h

theorem oneLine_escapeQuotes {text : List Char} (h : OneLine text) :
    OneLine (escapeQuotes text) := by
  intro c hc
  obtain ⟨d, hd, hc⟩ := List.mem_flatMap.mp hc
  split at hc
  · simp only [List.mem_cons, List.not_mem_nil, or_false] at hc
    rcases hc with rfl | rfl | rfl | rfl | rfl <;> decide
  · rw [List.mem_singleton.mp hc]
    exact h d hd

theorem oneLine_shlexQuote {text : List Char} (h : OneLine text) : OneLine (shlexQuote text) := by
  have hquote : OneLine [singleQuote] := by
    intro c hc
    rw [List.mem_singleton.mp hc]
    decide
  rw [shlexQuote]
  split
  · exact hquote.append hquote
  · split
    · exact h
    · exact hquote.append ((oneLine_escapeQuotes h).append hquote)

theorem ValidName.oneLine {key : String} (h : ValidName key) : OneLine key.toList := by
  intro c hc
  by_contra hboundary
  have hspace := isSpace_of_isLineBoundary (Bool.not_eq_false _ ▸ hboundary)
  rw [h.no_space c hc] at hspace
  cases hspace

theorem oneLine_exportLine {key value : String} (hkey : ValidName key)
    (hvalue : OneLine value.toList) : OneLine (exportLine key value) := by
  have hword : OneLine exportWord := by
    intro c hc
    have hexport : exportWord = ['e', 'x', 'p', 'o', 'r', 't', ' '] := rfl
    rw [hexport] at hc
    simp only [List.mem_cons, List.not_mem_nil, or_false] at hc
    rcases hc with rfl | rfl | rfl | rfl | rfl | rfl | rfl <;> decide
  have hequals : OneLine ['='] := by
    intro c hc
    rw [List.mem_singleton.mp hc]
    decide
  exact hword.append (hkey.oneLine.append (hequals.append (oneLine_shlexQuote hvalue)))

/-! ## Files -/

section Files

variable {env : Dict String String} {path : String}

theorem mem_sortedKeys {key : String} : key ∈ sortedKeys env ↔ key ∈ env.keys :=
  (List.mergeSort_perm env.keys _).mem_iff

theorem getD_of_mem_entries {key value : String} (h : (key, value) ∈ env.entries) :
    (env.get? key).getD "" = value := by
  rw [(env.get?_eq_some_iff key value).mpr h]
  rfl

theorem oneLine_of_all {text : List Char} (h : text.all (!isLineBoundary ·) = true) :
    OneLine text := by
  intro c hc
  simpa using List.all_eq_true.mp h c hc

theorem oneLine_fileLines (hnames : ∀ key ∈ env.keys, ValidName key)
    (hvalues : ∀ e ∈ env.entries, OneLine e.2.toList) :
    ∀ line ∈ fileLines env, OneLine line := by
  intro line hline
  rw [fileLines, List.mem_append, List.mem_append] at hline
  rcases hline with (hline | hline) | hline
  · simp only [headerLines, List.mem_cons, List.not_mem_nil, or_false] at hline
    rcases hline with rfl | rfl | rfl <;> exact oneLine_of_all (by decide +kernel)
  · obtain ⟨key, hkey, rfl⟩ := List.mem_map.mp hline
    have hmem := mem_sortedKeys.mp hkey
    obtain ⟨e, he, rfl⟩ := List.mem_map.mp hmem
    apply oneLine_exportLine (hnames _ hmem)
    rw [getD_of_mem_entries he]
    exact hvalues e he
  · rw [List.mem_singleton.mp hline]
    exact oneLine_of_all (by decide +kernel)

theorem splitLines_writeEnvFile (h : ∀ line ∈ fileLines env, OneLine line) :
    splitLines (universalNewlines (writeEnvFile env)) = fileLines env := by
  rw [writeEnvFile, intercalate_concat_nil, universalNewlines_of_not_mem, splitLines_flatMap h]
  intro hmem
  obtain ⟨line, hline, hmem⟩ := List.mem_flatMap.mp hmem
  rcases List.mem_append.mp hmem with hmem | hmem
  · have hboundary : isLineBoundary '\r' = true := by decide
    rw [h line hline _ hmem] at hboundary
    cases hboundary
  · simp at hmem

theorem filterMap_fileLines (hnames : ∀ key ∈ env.keys, ValidName key) :
    (fileLines env).filterMap parseLine =
      (sortedKeys env).map fun key ↦ (key, readBack ((env.get? key).getD "")) := by
  have hheader : headerLines.filterMap parseLine = [] := by decide +kernel
  have hlast : ["set +a".toList].filterMap parseLine = [] := by decide +kernel
  have hexports : (exportLines env).filterMap parseLine =
      (sortedKeys env).map fun key ↦ (key, readBack ((env.get? key).getD "")) := by
    rw [exportLines, List.filterMap_map, ← List.filterMap_eq_map]
    apply List.filterMap_congr
    intro key hkey
    exact parseLine_exportLine (hnames key (mem_sortedKeys.mp hkey)) _
  rw [fileLines, List.filterMap_append, List.filterMap_append, hheader, hexports, hlast,
    List.nil_append, List.append_nil]

/-- The values that stay on their lines come back one by one. -/
theorem get?_parseEnvFile (path : String) (hnames : ∀ key ∈ env.keys, ValidName key)
    (hvalues : ∀ e ∈ env.entries, OneLine e.2.toList) :
    ∃ read, parseEnvFile path (some (writeEnvFile env)) = .ok read ∧
      ∀ key, read.get? key = (env.get? key).map readBack := by
  refine ⟨_, rfl, fun key ↦ ?_⟩
  rw [splitLines_writeEnvFile (oneLine_fileLines hnames hvalues), filterMap_fileLines hnames]
  have hnodup : (((sortedKeys env).map fun key ↦
      (key, readBack ((env.get? key).getD ""))).map Prod.fst).Nodup := by
    rw [List.map_map, Function.comp_def, List.map_id']
    exact (List.mergeSort_perm env.keys _).nodup_iff.mpr env.nodup
  apply Option.ext
  intro value
  rw [Dict.get?_eq_some_iff, Dict.ofPairs_entries hnodup, List.mem_map, Option.map_eq_some_iff]
  constructor
  · rintro ⟨key', hkey', heq⟩
    cases heq
    obtain ⟨e, he, rfl⟩ := List.mem_map.mp (mem_sortedKeys.mp hkey')
    exact ⟨e.2, (env.get?_eq_some_iff _ _).mpr he, by rw [getD_of_mem_entries he]⟩
  · rintro ⟨old, hold, rfl⟩
    refine ⟨key, mem_sortedKeys.mpr ((env.isSome_get? key).mp (by rw [hold]; rfl)), ?_⟩
    rw [hold]
    rfl

/-- Parsing the file gives back the mapping. -/
def RoundTrips (path : String) (env : Dict String String) : Prop :=
  ∃ read, parseEnvFile path (some (writeEnvFile env)) = .ok read ∧
    ∀ key, read.get? key = env.get? key

/-- No single quote and no character that ends a line. -/
def Plain (value : String) : Prop := singleQuote ∉ value.toList ∧ OneLine value.toList

theorem readBack_eq_iff (value : String) : readBack value = value ↔ singleQuote ∉ value.toList := by
  rw [readBack, ← shellUnquote_shlexQuote_iff]
  constructor
  · intro h
    rw [← String.toList_inj, String.toList_ofList] at h
    exact h
  · intro h
    rw [h, String.ofList_toList]

/-- A line holds no line end, so a value that comes back has none. -/
theorem RoundTrips.oneLine (h : RoundTrips path env) :
    ∀ e ∈ env.entries, OneLine e.2.toList := by
  obtain ⟨read, hread, hget⟩ := h
  intro e he
  have hvalue := hget e.1
  rw [(env.get?_eq_some_iff e.1 e.2).mpr he, ← Except.ok.inj hread] at hvalue
  obtain ⟨line, hline, hparse⟩ := List.mem_filterMap.mp (Dict.mem_of_get?_ofPairs hvalue)
  intro c hc
  exact oneLine_of_mem_splitLines hline c (mem_of_parseLine hparse c hc)

/-- A mapping comes back from its file just when no value has a single quote or a character that
ends a line. -/
theorem env_file_round_trip_iff (path : String) (env : Dict String String)
    (hnames : ∀ key ∈ env.keys, ValidName key) :
    RoundTrips path env ↔ ∀ e ∈ env.entries, Plain e.2 := by
  constructor
  · intro h e he
    have hlines := h.oneLine
    obtain ⟨read, hread, hget⟩ := h
    obtain ⟨read', hread', hget'⟩ := get?_parseEnvFile path hnames hlines
    obtain rfl : read = read' := Except.ok.inj (hread.symm.trans hread')
    have hentry := (env.get?_eq_some_iff e.1 e.2).mpr he
    have hback : some (readBack e.2) = some e.2 := by
      rw [← hentry, ← hget e.1, hget' e.1, hentry]
      rfl
    exact ⟨(readBack_eq_iff e.2).mp (Option.some.inj hback), hlines e he⟩
  · intro h
    obtain ⟨read, hread, hget⟩ := get?_parseEnvFile path hnames fun e he ↦ (h e he).2
    refine ⟨read, hread, fun key ↦ ?_⟩
    rw [hget key]
    cases hkey : env.get? key with
    | none => rfl
    | some value =>
        have hplain := h _ ((env.get?_eq_some_iff key value).mp hkey)
        rw [Option.map_some, (readBack_eq_iff value).mpr hplain.1]

theorem validName_scenarioName : ValidName "OTA_SCENARIO_NAME" where
  ne_empty := by decide
  no_equals := by decide
  no_space := by
    have hall : "OTA_SCENARIO_NAME".toList.all (!isSpace ·) = true := by decide +kernel
    intro c hc
    simpa using List.all_eq_true.mp hall c hc
  no_quote := ⟨by decide, by decide⟩

def namedScenario (name : String) : Dict String String :=
  Dict.empty.set "OTA_SCENARIO_NAME" name

theorem validName_namedScenario (name : String) :
    ∀ key ∈ (namedScenario name).keys, ValidName key := by
  intro key hkey
  have hkeys : (namedScenario name).keys = ["OTA_SCENARIO_NAME"] := rfl
  rw [hkeys] at hkey
  rw [List.mem_singleton.mp hkey]
  exact validName_scenarioName

/-- A name with a blank comes back. -/
theorem env_file_round_trip_blank :
    RoundTrips "tcu_env.sh" (namedScenario "two words") := by
  rw [env_file_round_trip_iff "tcu_env.sh" (namedScenario "two words")
    (validName_namedScenario "two words")]
  intro e he
  have hentries : (namedScenario "two words").entries = [("OTA_SCENARIO_NAME", "two words")] := rfl
  rw [hentries] at he
  rw [List.mem_singleton.mp he]
  exact ⟨by decide, oneLine_of_all (by decide +kernel)⟩

/-- A name with an apostrophe comes back with the escape of the shell in it. -/
theorem env_file_apostrophe :
    (∃ read, parseEnvFile "tcu_env.sh" (some (writeEnvFile (namedScenario "driver's car"))) =
        .ok read ∧ read.get? "OTA_SCENARIO_NAME" = some "driver'\"'\"'s car") ∧
      ¬ RoundTrips "tcu_env.sh" (namedScenario "driver's car") := by
  have hentries : (namedScenario "driver's car").entries =
      [("OTA_SCENARIO_NAME", "driver's car")] := rfl
  have hline : ∀ e ∈ (namedScenario "driver's car").entries, OneLine e.2.toList := by
    intro e he
    rw [hentries] at he
    rw [List.mem_singleton.mp he]
    exact oneLine_of_all (by decide +kernel)
  obtain ⟨read, hread, hget⟩ :=
    get?_parseEnvFile "tcu_env.sh" (validName_namedScenario "driver's car") hline
  have hvalue : read.get? "OTA_SCENARIO_NAME" = some "driver'\"'\"'s car" := by
    rw [hget]
    decide +kernel
  refine ⟨⟨read, hread, hvalue⟩, ?_⟩
  rintro ⟨read', hread', hget'⟩
  obtain rfl : read = read' := Except.ok.inj (hread.symm.trans hread')
  have hsame := hget' "OTA_SCENARIO_NAME"
  rw [hvalue] at hsame
  exact absurd hsame (by decide)

end Files

end VehicleOta
