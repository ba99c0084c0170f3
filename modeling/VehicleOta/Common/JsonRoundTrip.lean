import VehicleOta.Common.JsonText

/-!
# Reading what was written

`json.loads` gives back the value that `json.dumps` has written, in every layout.  The induction is
on the value; the fuel of the reader is compared with the length of the text.
-/

namespace VehicleOta.Json

/-! ## Blanks -/

theorem skipBlanks_append {blanks : List Char} (h : ∀ c ∈ blanks, isBlank c) (text : List Char) :
    skipBlanks (blanks ++ text) = skipBlanks text :=
  List.dropWhile_append_of_pos h

theorem skipBlanks_cons {c : Char} (h : isBlank c = false) (text : List Char) :
    skipBlanks (c :: text) = c :: text := by
  rw [skipBlanks, List.dropWhile_cons, if_neg (by simp [h])]

namespace Layout

variable (l : Layout)

theorem isBlank_of_mem_newline {level : ℕ} {c : Char} (h : c ∈ l.newline level) : isBlank c := by
  unfold newline at h
  split at h
  · cases h
  · rcases List.mem_cons.mp h with rfl | h
    · decide
    · rw [List.eq_of_mem_replicate h]
      decide

theorem isBlank_of_mem_replicate {n : ℕ} {c : Char} (h : c ∈ List.replicate n ' ') : isBlank c := by
  rw [List.eq_of_mem_replicate h]
  decide

theorem skip_newline (level : ℕ) (text : List Char) :
    skipBlanks (l.newline level ++ text) = skipBlanks text :=
  skipBlanks_append (fun _ ↦ l.isBlank_of_mem_newline) text

theorem skip_comma (level : ℕ) (text : List Char) :
    skipBlanks ((l.comma level).tail ++ text) = skipBlanks text := by
  apply skipBlanks_append
  intro c hc
  rcases List.mem_append.mp hc with hc | hc
  · exact isBlank_of_mem_replicate hc
  · exact l.isBlank_of_mem_newline hc

theorem skip_colon (text : List Char) : skipBlanks (l.colon.tail ++ text) = skipBlanks text :=
  skipBlanks_append (fun _ ↦ isBlank_of_mem_replicate) text

theorem comma_append (level : ℕ) (text : List Char) :
    l.comma level ++ text = ',' :: ((l.comma level).tail ++ text) := rfl

theorem colon_append (text : List Char) : l.colon ++ text = ':' :: (l.colon.tail ++ text) := rfl

end Layout

/-! ## Texts -/

theorem hexDigitValue?_mod (n : ℕ) : hexDigitValue? (Hash.hexDigit (n % 16)) = some (n % 16) :=
  (hexDigit_props ⟨n % 16, Nat.mod_lt _ (by decide)⟩).2.1

theorem hex4_tail (n : ℕ) : (hex4 n).tail = 'u' :: (hex4 n).drop 2 := rfl

theorem hex4_append (n : ℕ) (rest : List Char) :
    hex4 n ++ rest = '\\' :: 'u' :: ((hex4 n).drop 2 ++ rest) := rfl

theorem scanUnit_hex4 {n : ℕ} (h : n < 0x10000) (rest : List Char) :
    scanUnit ((hex4 n).drop 2 ++ rest) = some (n, rest) := by
  have hdigits : 4096 * (n / 4096 % 16) + 256 * (n / 256 % 16) + 16 * (n / 16 % 16) + n % 16 = n := by
    omega
  change scanUnit (Hash.hexDigit _ :: Hash.hexDigit _ :: Hash.hexDigit _ :: Hash.hexDigit _ :: rest) = _
  simp only [scanUnit, hexDigitValue?_mod, Option.bind_eq_bind, Option.bind_some, hdigits]
  rfl

/-- A code point from the first plane is no surrogate. -/
theorem scanEscape_plane {c : Char} (h : c.toNat < 0x10000) (rest : List Char) :
    scanEscape ((hex4 c.toNat).tail ++ rest) = some (c, rest) := by
  have hvalid : c.toNat < 0xd800 ∨ 0xdfff < c.toNat ∧ c.toNat < 0x110000 := c.valid
  have hunit := scanUnit_hex4 h rest
  rw [hex4_tail, List.cons_append]
  simp only [scanEscape, if_pos, hunit, Option.bind_eq_bind, Option.bind_some]
  rw [if_neg (by omega), if_neg (by omega), Char.ofNat_toNat]
  rfl

theorem scanLow_hex {high low : ℕ} {text rest : List Char} (hlow : scanUnit text = some (low, rest))
    (h : 0xdc00 ≤ low ∧ low < 0xe000) :
    scanLow high ('\\' :: 'u' :: text) =
      some (Char.ofNat (0x10000 + 1024 * (high - 0xd800) + (low - 0xdc00)), rest) := by
  simp only [scanLow, hlow, Option.bind_eq_bind, Option.bind_some]
  rw [if_pos h]
  rfl

theorem scanEscape_high {high : ℕ} {text rest : List Char}
    (hhigh : scanUnit text = some (high, rest)) (h : 0xd800 ≤ high ∧ high < 0xdc00) :
    scanEscape ('u' :: text) = scanLow high rest := by
  simp only [scanEscape, if_pos, hhigh, Option.bind_eq_bind, Option.bind_some]
  rw [if_pos h]

theorem scanEscape_pair {c : Char} (h : ¬ c.toNat < 0x10000) (rest : List Char) :
    scanEscape ((hex4 (0xd800 + (c.toNat - 0x10000) / 1024)).tail ++
      (hex4 (0xdc00 + (c.toNat - 0x10000) % 1024) ++ rest)) = some (c, rest) := by
  have hvalid : c.toNat < 0xd800 ∨ 0xdfff < c.toNat ∧ c.toNat < 0x110000 := c.valid
  have hn : (c.toNat - 0x10000) / 1024 < 0x400 := by omega
  generalize hhighs : 0xd800 + (c.toNat - 0x10000) / 1024 = high
  generalize hlows : 0xdc00 + (c.toNat - 0x10000) % 1024 = low
  have hcode : 0x10000 + 1024 * (high - 0xd800) + (low - 0xdc00) = c.toNat := by omega
  rw [hex4_tail, List.cons_append, scanEscape_high (scanUnit_hex4 (by omega) _) (by omega),
    hex4_append, scanLow_hex (scanUnit_hex4 (by omega) rest) (by omega), hcode, Char.ofNat_toNat]

/-- Either the character stands for itself, or it is behind a backslash. -/
theorem escapeChar_cases (c : Char) :
    (escapeChar c = [c] ∧ c ≠ '"' ∧ c ≠ '\\' ∧ ¬ c.toNat < 0x20) ∨
      ∃ tail, escapeChar c = '\\' :: tail ∧
        ∀ rest, scanEscape (tail ++ rest) = some (c, rest) := by
  unfold escapeChar
  by_cases hquote : c = '"'
  · subst hquote
    exact Or.inr ⟨['"'], rfl, fun _ ↦ rfl⟩
  by_cases hslash : c = '\\'
  · subst hslash
    exact Or.inr ⟨['\\'], rfl, fun _ ↦ rfl⟩
  by_cases hn : c = '\n'
  · subst hn
    exact Or.inr ⟨['n'], rfl, fun _ ↦ rfl⟩
  by_cases hr : c = '\r'
  · subst hr
    exact Or.inr ⟨['r'], rfl, fun _ ↦ rfl⟩
  by_cases ht : c = '\t'
  · subst ht
    exact Or.inr ⟨['t'], rfl, fun _ ↦ rfl⟩
  by_cases hb : c.toNat = 8
  · obtain rfl : c = Char.ofNat 8 := by rw [← hb, Char.ofNat_toNat]
    exact Or.inr ⟨['b'], rfl, fun _ ↦ rfl⟩
  by_cases hf : c.toNat = 12
  · obtain rfl : c = Char.ofNat 12 := by rw [← hf, Char.ofNat_toNat]
    exact Or.inr ⟨['f'], rfl, fun _ ↦ rfl⟩
  rw [if_neg hquote, if_neg hslash, if_neg hn, if_neg hr, if_neg ht, if_neg hb, if_neg hf]
  split
  · rename_i hprintable
    exact Or.inl ⟨rfl, hquote, hslash, by omega⟩
  · split
    · rename_i hplane
      exact Or.inr ⟨_, rfl, scanEscape_plane hplane⟩
    · rename_i hplane
      refine Or.inr ⟨(hex4 (0xd800 + (c.toNat - 0x10000) / 1024)).tail ++
        hex4 (0xdc00 + (c.toNat - 0x10000) % 1024), rfl, fun rest ↦ ?_⟩
      rw [List.append_assoc]
      exact scanEscape_pair hplane rest

theorem scanChars_quote (cs rest : List Char) {fuel : ℕ} (hfuel : cs.length < fuel) :
    scanChars fuel (cs.flatMap escapeChar ++ '"' :: rest) = some (cs, rest) := by
  induction cs generalizing fuel with
  | nil =>
      obtain ⟨fuel, rfl⟩ := Nat.exists_eq_succ_of_ne_zero hfuel.ne'
      simp [scanChars]
  | cons c cs ih =>
      obtain ⟨fuel, rfl⟩ := Nat.exists_eq_succ_of_ne_zero (Nat.ne_zero_of_lt hfuel)
      have hrest := ih (Nat.succ_lt_succ_iff.mp hfuel)
      rw [List.flatMap_cons, List.append_assoc]
      rcases escapeChar_cases c with ⟨hself, hquote, hslash, hcontrol⟩ | ⟨tail, htail, hscan⟩
      · rw [hself, List.singleton_append, scanChars, if_neg hquote, if_neg hslash, if_neg hcontrol,
          hrest]
        rfl
      · rw [htail, List.cons_append, scanChars, if_neg (by decide), if_pos rfl, hscan]
        simp only [Option.bind_eq_bind, Option.bind_some, hrest]
        rfl

theorem length_le_length_escape (cs : List Char) : cs.length ≤ (cs.flatMap escapeChar).length := by
  induction cs with
  | nil => exact le_rfl
  | cons c cs ih =>
      have hone : 1 ≤ (escapeChar c).length := by
        rcases escapeChar_cases c with ⟨hself, -⟩ | ⟨tail, htail, -⟩
        · rw [hself]
          exact le_rfl
        · rw [htail]
          exact Nat.succ_le_succ (Nat.zero_le _)
      rw [List.flatMap_cons, List.length_append, List.length_cons]
      omega

/-- A text is read back from behind its opening quote. -/
theorem scanString_quote (s : String) (rest : List Char) :
    scanString ((quote s).tail ++ rest) = .ok (s, rest) := by
  have hlength := length_le_length_escape s.toList
  have hscan := @scanChars_quote s.toList rest
    ((s.toList.flatMap escapeChar ++ '"' :: rest).length + 1) (by
      rw [List.length_append]
      omega)
  change scanString ((s.toList.flatMap escapeChar ++ ['"']) ++ rest) = _
  rw [List.append_assoc, List.singleton_append, scanString, hscan]
  simp

theorem quote_append (s : String) (rest : List Char) :
    quote s ++ rest = '"' :: ((quote s).tail ++ rest) := rfl

/-! ## Numbers -/

/-- What stands behind a number does not go on with it. -/
def Separated (rest : List Char) : Prop :=
  ∀ c ∈ rest.head?, c.isDigit = false ∧ c ≠ '.' ∧ c ≠ 'e' ∧ c ≠ 'E'

theorem separated_cons {c : Char} (hdigit : c.isDigit = false) (h : c ∉ ['.', 'e', 'E'])
    (rest : List Char) : Separated (c :: rest) := by
  intro d hd
  obtain rfl := Option.some.inj hd
  simp only [List.mem_cons, List.not_mem_nil, or_false, not_or] at h
  exact ⟨hdigit, h.1, h.2.1, h.2.2⟩

theorem scanDigits_append {digits rest : List Char} (hdigits : ∀ c ∈ digits, c.isDigit)
    (hrest : ∀ c ∈ rest.head?, c.isDigit = false) : scanDigits (digits ++ rest) = (digits, rest) := by
  rw [scanDigits, List.span_eq_takeWhile_dropWhile, List.takeWhile_append_of_pos hdigits,
    List.dropWhile_append_of_pos hdigits]
  cases rest with
  | nil => simp
  | cons c rest =>
      have hc := hrest c rfl
      simp [hc]

/-- No number but zero is written with a zero in front. -/
theorem head_digitsOf {n : ℕ} (h : 0 < n) : (digitsOf n).head? ≠ some '0' := by
  induction n using Nat.strong_induction_on with
  | h n ih =>
      unfold digitsOf at ih ⊢
      by_cases hsmall : n < 10
      · rw [Nat.toDigits_of_lt_base hsmall]
        interval_cases n <;> decide
      · rw [Nat.toDigits_of_base_le (by decide) (not_lt.mp hsmall),
          List.head?_append_of_ne_nil _ Nat.toDigits_ne_nil]
        exact ih (n / 10) (by omega) (by omega)

/-- The part of a number behind the point. -/
def IsFraction (text : List Char) : Prop :=
  text = [] ∨ ∃ digits, text = '.' :: digits ∧ digits ≠ [] ∧ ∀ c ∈ digits, c.isDigit

def IsExponent (text : List Char) : Prop :=
  text = [] ∨ ∃ sign digits, text = 'e' :: sign :: digits ∧ sign ∈ ['+', '-'] ∧ digits ≠ [] ∧
    ∀ c ∈ digits, c.isDigit

theorem scanExponent_append {exponent rest : List Char} (h : IsExponent exponent)
    (hrest : Separated rest) : scanExponent (exponent ++ rest) = (exponent, rest) := by
  rcases h with rfl | ⟨sign, digits, rfl, hsign, hne, hdigits⟩
  · cases rest with
    | nil => rfl
    | cons c rest =>
        obtain ⟨-, -, he, hE⟩ := hrest c rfl
        simp [scanExponent, he, hE]
  · have hscan := scanDigits_append hdigits fun c hc ↦ (hrest c hc).1
    have htake : scanSign ['+', '-'] (sign :: (digits ++ rest)) = ([sign], digits ++ rest) :=
      if_pos hsign
    obtain ⟨d, digits, rfl⟩ := List.exists_cons_of_ne_nil hne
    simp only [List.cons_append] at hscan htake ⊢
    simp [scanExponent, htake, hscan]

theorem head_exponent {exponent rest : List Char} (h : IsExponent exponent) (hrest : Separated rest) :
    ∀ c ∈ (exponent ++ rest).head?, c.isDigit = false ∧ c ≠ '.' := by
  rcases h with rfl | ⟨sign, digits, rfl, -⟩
  · exact fun c hc ↦ ⟨(hrest c hc).1, (hrest c hc).2.1⟩
  · intro c hc
    obtain rfl := Option.some.inj hc
    decide

theorem scanFraction_append {fraction rest : List Char} (h : IsFraction fraction)
    (hrest : ∀ c ∈ rest.head?, c.isDigit = false ∧ c ≠ '.') :
    scanFraction (fraction ++ rest) = (fraction, rest) := by
  rcases h with rfl | ⟨digits, rfl, hne, hdigits⟩
  · cases rest with
    | nil => rfl
    | cons c rest =>
        have hpoint := (hrest c rfl).2
        unfold scanFraction
        split
        · rename_i heq
          exact absurd (List.cons.inj heq).1 hpoint
        · rfl
  · have hscan := scanDigits_append hdigits fun c hc ↦ (hrest c hc).1
    obtain ⟨d, digits, rfl⟩ := List.exists_cons_of_ne_nil hne
    simp only [List.cons_append] at hscan ⊢
    simp [scanFraction, hscan]

theorem head_fraction {fraction rest : List Char} (h : IsFraction fraction)
    (hrest : ∀ c ∈ rest.head?, c.isDigit = false) :
    ∀ c ∈ (fraction ++ rest).head?, c.isDigit = false := by
  rcases h with rfl | ⟨digits, rfl, -⟩
  · exact hrest
  · intro c hc
    obtain rfl := Option.some.inj hc
    decide

def signText (negative : Bool) : List Char := if negative then ['-'] else []

theorem scanSign_append (negative : Bool) {n : ℕ} (rest : List Char) :
    scanSign ['-'] (signText negative ++ (digitsOf n ++ rest)) =
      (signText negative, digitsOf n ++ rest) := by
  cases negative with
  | true => rfl
  | false =>
      cases hdigits : digitsOf n with
      | nil => exact absurd hdigits Nat.toDigits_ne_nil
      | cons d digits =>
          have hd : d ≠ '-' := by
            rintro rfl
            have := isDigit_of_mem_digitsOf (hdigits ▸ List.mem_cons_self : '-' ∈ digitsOf n)
            exact absurd this (by decide)
          exact if_neg (by simpa using hd)

section Numbers

variable {float : List Char → Json} {negative : Bool} {n : ℕ} {fraction exponent rest : List Char}

/-- The parts of a number, each as far as it goes. -/
theorem scanNumber_append (hfraction : IsFraction fraction) (hexponent : IsExponent exponent)
    (hrest : Separated rest) :
    scanNumber float (signText negative ++ (digitsOf n ++ (fraction ++ (exponent ++ rest)))) =
      if fraction = [] ∧ exponent = [] then
        scanInteger (signText negative) (digitsOf n) rest
      else .ok (float (signText negative ++ digitsOf n ++ fraction ++ exponent), rest) := by
  have hhead := head_exponent hexponent hrest
  have hdigits := @scanDigits_append (digitsOf n) (fraction ++ (exponent ++ rest))
    (fun _ ↦ isDigit_of_mem_digitsOf) (head_fraction hfraction fun c hc ↦ (hhead c hc).1)
  have hne : digitsOf n ≠ [] := Nat.toDigits_ne_nil
  have hwhole : (if (digitsOf n).head? = some '0' then
      (['0'], (digitsOf n).tail ++ (fraction ++ (exponent ++ rest)))
      else (digitsOf n, fraction ++ (exponent ++ rest))) =
        (digitsOf n, fraction ++ (exponent ++ rest)) := by
    rcases Nat.eq_zero_or_pos n with rfl | hpos
    · rfl
    · rw [if_neg (head_digitsOf hpos)]
  simp only [scanNumber, scanSign_append, hdigits, hwhole, if_neg hne,
    scanFraction_append hfraction hhead, scanExponent_append hexponent hrest]

theorem toList_toString_int (n : ℤ) :
    (toString n).toList = signText (decide (n < 0)) ++ digitsOf n.natAbs := by
  cases n with
  | ofNat n =>
      have hsign : decide (Int.ofNat n < 0) = false := by simp
      rw [hsign]
      exact Nat.toList_repr
  | negSucc n =>
      have hsign : decide (Int.negSucc n < 0) = true := by simp [Int.negSucc_lt_zero]
      rw [hsign]
      change ("-" ++ (n + 1).repr).toList = _
      rw [String.toList_append, Nat.toList_repr]
      rfl

theorem scanNumber_int {n : ℤ} (h : (digitsOf n.natAbs).length ≤ 4300) (hrest : Separated rest) :
    scanNumber float ((toString n).toList ++ rest) = .ok (int n, rest) := by
  have hscan := @scanNumber_append float (decide (n < 0)) n.natAbs [] [] rest (Or.inl rfl)
    (Or.inl rfl) hrest
  rw [toList_toString_int, List.append_assoc]
  simp only [List.nil_append] at hscan
  rw [hscan, if_pos ⟨trivial, trivial⟩, scanInteger, intOfDigits_digitsOf h]
  dsimp only
  by_cases hn : n < 0
  · rw [if_neg (by simp [signText, hn])]
    congr
    omega
  · rw [if_pos (by simp [signText, hn])]
    congr
    omega

/-- `repr` of a finite float, from which `float` makes it again. -/
structure IsFloat (float : List Char → Json) (value : ℚ) (text : String) : Prop where
  reads : float text.toList = .float value text
  parts : ∃ negative n fraction exponent, text.toList =
      signText negative ++ (digitsOf n ++ (fraction ++ exponent)) ∧
    IsFraction fraction ∧ IsExponent exponent ∧ ¬ (fraction = [] ∧ exponent = [])

theorem scanNumber_float {value : ℚ} {text : String} (h : IsFloat float value text)
    (hrest : Separated rest) :
    scanNumber float (text.toList ++ rest) = .ok (.float value text, rest) := by
  obtain ⟨negative, n, fraction, exponent, htext, hfraction, hexponent, hne⟩ := h.parts
  have hscan := @scanNumber_append float negative n fraction exponent rest hfraction hexponent hrest
  have hreads := h.reads
  rw [if_neg hne] at hscan
  rw [htext] at hreads ⊢
  simp only [List.append_assoc] at hscan ⊢
  rw [hscan, hreads]

theorem scanConstant_number (rest : List Char) :
    scanConstant (signText negative ++ (digitsOf n ++ rest)) = none := by
  cases hdigits : digitsOf n with
  | nil => exact absurd hdigits Nat.toDigits_ne_nil
  | cons d digits =>
      have hd : d.isDigit := isDigit_of_mem_digitsOf (hdigits ▸ List.mem_cons_self)
      have hletters : d ≠ 'n' ∧ d ≠ 't' ∧ d ≠ 'f' ∧ d ≠ 'N' ∧ d ≠ 'I' ∧ d ≠ '-' := by
        refine ⟨?_, ?_, ?_, ?_, ?_, ?_⟩ <;> (rintro rfl; revert hd; decide)
      cases negative with
      | true => simp [scanConstant, constants, signText, List.dropPrefix?, hletters]
      | false => simp [scanConstant, constants, signText, List.dropPrefix?, hletters]

theorem scanConstant_of_mem {name : String} {value : Json} (h : (name, value) ∈ constants)
    (rest : List Char) : scanConstant (name.toList ++ rest) = some (value, rest) := by
  simp only [constants, List.mem_cons, List.not_mem_nil, or_false, Prod.mk.injEq] at h
  rcases h with ⟨rfl, rfl⟩ | ⟨rfl, rfl⟩ | ⟨rfl, rfl⟩ | ⟨rfl, rfl⟩ | ⟨rfl, rfl⟩ | ⟨rfl, rfl⟩ <;>
    simp [scanConstant, constants, List.dropPrefix?]

end Numbers

/-! ## Values -/

/-- What `json.dumps` writes so that it can be read again. -/
inductive Printable (float : List Char → Json) : Json → Prop
  | null : Printable float null
  | bool (b : Bool) : Printable float (bool b)
  | int {n : ℤ} (h : (digitsOf n.natAbs).length ≤ 4300) : Printable float (int n)
  | float {value : ℚ} {text : String} (h : IsFloat float value text) :
      Printable float (.float value text)
  | infinity (negative : Bool) : Printable float (infinity negative)
  | nan : Printable float nan
  | str (s : String) : Printable float (str s)
  | list {xs : List Json} (h : ∀ x ∈ xs, Printable float x) : Printable float (list xs)
  | dict {es : List (String × Json)} (hkeys : (es.map Prod.fst).Nodup)
      (h : ∀ e ∈ es, Printable float e.2) : Printable float (dict es)

section Values

variable {float : List Char → Json} {l : Layout} {x : Json} {fuel : ℕ} {text rest after : List Char}

/-- The first character of a value. -/
def Opens (text : List Char) : Prop :=
  ∃ c tail, text = c :: tail ∧ isBlank c = false ∧ c ≠ ']'

theorem Opens.append (h : Opens text) (rest : List Char) : Opens (text ++ rest) := by
  obtain ⟨c, tail, rfl, hc⟩ := h
  exact ⟨c, tail ++ rest, rfl, hc⟩

theorem Opens.skipBlanks (h : Opens text) : skipBlanks text = text := by
  obtain ⟨c, tail, rfl, hc, -⟩ := h
  exact skipBlanks_cons hc tail

theorem opens_number (negative : Bool) (n : ℕ) (rest : List Char) :
    Opens (signText negative ++ (digitsOf n ++ rest)) := by
  cases negative with
  | true => exact ⟨'-', _, rfl, by decide, by decide⟩
  | false =>
      cases hdigits : digitsOf n with
      | nil => exact absurd hdigits Nat.toDigits_ne_nil
      | cons d digits =>
          have hd : d.isDigit := isDigit_of_mem_digitsOf (hdigits ▸ List.mem_cons_self)
          refine ⟨d, digits ++ rest, rfl, ?_, ?_⟩
          · by_contra hblank
            simp only [isBlank, Bool.not_eq_false, Bool.or_eq_true, decide_eq_true_eq] at hblank
            rcases hblank with ((rfl | rfl) | rfl) | rfl <;> revert hd <;> decide
          · rintro rfl
            revert hd
            decide

theorem Printable.opens (h : Printable float x) (level : ℕ) : Opens (dump l level x) := by
  cases h with
  | null => exact ⟨'n', _, rfl, by decide, by decide⟩
  | bool b =>
      cases b with
      | true => exact ⟨'t', _, rfl, by decide, by decide⟩
      | false => exact ⟨'f', _, rfl, by decide, by decide⟩
  | int h =>
      rw [dump, toList_toString_int]
      simpa using opens_number _ _ []
  | float h =>
      obtain ⟨negative, n, fraction, exponent, htext, -⟩ := h.parts
      rw [dump, htext]
      exact opens_number negative n _
  | infinity negative =>
      cases negative with
      | true => exact ⟨'-', _, rfl, by decide, by decide⟩
      | false => exact ⟨'I', _, rfl, by decide, by decide⟩
  | nan => exact ⟨'N', _, rfl, by decide, by decide⟩
  | str s => exact ⟨'"', _, by rw [dump]; rfl, by decide, by decide⟩
  | list h =>
      rename_i xs
      cases xs with
      | nil => exact ⟨'[', _, rfl, by decide, by decide⟩
      | cons y ys => exact ⟨'[', _, by rw [dump], by decide, by decide⟩
  | dict hkeys h =>
      rename_i es
      cases es with
      | nil => exact ⟨'{', _, rfl, by decide, by decide⟩
      | cons e es =>
          obtain ⟨key, y⟩ := e
          exact ⟨'{', _, by rw [dump], by decide, by decide⟩

/-! ### The steps of the reader -/

theorem scanValue_atom (h : ∀ c ∈ text.head?, c ∉ ['"', '[', '{']) :
    scanValue float (fuel + 1) text = scanAtom float text := by
  unfold scanValue
  split
  · exact absurd (h _ rfl) (by decide)
  · exact absurd (h _ rfl) (by decide)
  · exact absurd (h _ rfl) (by decide)
  · rfl

theorem scanValue_str (s : String) (rest : List Char) :
    scanValue float (fuel + 1) (quote s ++ rest) = .ok (str s, rest) := by
  rw [quote_append, scanValue, scanString_quote]
  rfl

theorem scanValue_list {xs : List Json} (hopens : Opens (skipBlanks text))
    (hitems : scanItems float fuel (skipBlanks text) = .ok (xs, rest)) :
    scanValue float (fuel + 1) ('[' :: text) = .ok (list xs, rest) := by
  rw [scanValue]
  obtain ⟨c, tail, htext, -, hc⟩ := hopens
  rw [htext] at hitems ⊢
  split
  · rename_i heq
    exact absurd (List.cons.inj heq).1 hc
  · rw [hitems]
    rfl

theorem scanItems_last (hvalue : scanValue float fuel text = .ok (x, rest))
    (hrest : skipBlanks rest = ']' :: after) :
    scanItems float (fuel + 1) text = .ok ([x], after) := by
  rw [scanItems, hvalue]
  simp only [bind, Except.bind, hrest]
  rfl

theorem scanItems_more {xs : List Json} {between : List Char}
    (hvalue : scanValue float fuel text = .ok (x, rest))
    (hrest : skipBlanks rest = ',' :: between)
    (hitems : scanItems float fuel (skipBlanks between) = .ok (xs, after)) :
    scanItems float (fuel + 1) text = .ok (x :: xs, after) := by
  rw [scanItems, hvalue]
  simp only [bind, Except.bind, hrest, hitems]
  rfl

theorem scanValue_dict {es : List (String × Json)} (hopens : (skipBlanks text).head? = some '"')
    (hentries : scanEntries float fuel (skipBlanks text) = .ok (es, rest)) :
    scanValue float (fuel + 1) ('{' :: text) = .ok (dict (Dict.ofPairs es).entries, rest) := by
  rw [scanValue]
  split
  · rename_i heq
    rw [heq] at hopens
    cases hopens
  · rw [hentries]
    rfl

theorem scanEntries_last {key : String}
    (hcolon : skipBlanks rest = ':' :: text)
    (hvalue : scanValue float fuel (skipBlanks text) = .ok (x, after))
    {last : List Char} (hafter : skipBlanks after = '}' :: last) :
    scanEntries float (fuel + 1) (quote key ++ rest) = .ok ([(key, x)], last) := by
  rw [quote_append, scanEntries, scanString_quote]
  simp only [bind, Except.bind, hcolon, hvalue, hafter]
  rfl

theorem scanEntries_more {key : String} {es : List (String × Json)}
    (hcolon : skipBlanks rest = ':' :: text)
    (hvalue : scanValue float fuel (skipBlanks text) = .ok (x, after))
    {between last : List Char} (hafter : skipBlanks after = ',' :: between)
    (hentries : scanEntries float fuel (skipBlanks between) = .ok (es, last)) :
    scanEntries float (fuel + 1) (quote key ++ rest) = .ok ((key, x) :: es, last) := by
  rw [quote_append, scanEntries, scanString_quote]
  simp only [bind, Except.bind, hcolon, hvalue, hafter, hentries]
  rfl

/-! ### The round trip -/

/-- The reader takes the value from the front of the text. -/
def Reads (float : List Char → Json) (l : Layout) (x : Json) : Prop :=
  ∀ level fuel rest, Separated rest → 2 * (dump l level x).length ≤ fuel →
    scanValue float fuel (dump l level x ++ rest) = .ok (x, rest)

theorem separated_newline (level : ℕ) {c : Char} (hdigit : c.isDigit = false)
    (hc : c ∉ ['.', 'e', 'E']) : Separated (l.newline level ++ c :: rest) := by
  unfold Layout.newline
  split
  · exact separated_cons hdigit hc rest
  · exact separated_cons (by decide) (by decide) _

theorem dumpItems_append (level : ℕ) (y : Json) (ys : List Json) (rest : List Char) :
    dumpItems l level (y :: ys) ++ rest =
      ',' :: ((l.comma level).tail ++ (dump l level y ++ (dumpItems l level ys ++ rest))) := by
  rw [dumpItems, Layout.comma_append, List.cons_append, List.append_assoc, List.append_assoc]

theorem dumpEntries_append (level : ℕ) (key : String) (y : Json) (es : List (String × Json))
    (rest : List Char) :
    dumpEntries l level ((key, y) :: es) ++ rest =
      ',' :: ((l.comma level).tail ++ (quote key ++ (l.colon ++ (dump l level y ++
        (dumpEntries l level es ++ rest))))) := by
  rw [dumpEntries, Layout.comma_append]
  simp only [List.cons_append, List.append_assoc]

/-- Induction on the items behind the first one. -/
theorem scanItems_dump {xs : List Json} (hx : Reads float l x) (hxs : ∀ y ∈ xs, Reads float l y)
    (hopens : ∀ y ∈ xs, ∀ level, Opens (dump l level y)) {level outer : ℕ}
    (hfuel : 2 * (dump l level x ++ dumpItems l level xs).length + 1 ≤ fuel) :
    scanItems float fuel (dump l level x ++ (dumpItems l level xs ++
      (l.newline outer ++ ']' :: rest))) = .ok (x :: xs, rest) := by
  induction xs generalizing x fuel with
  | nil =>
      obtain ⟨fuel, rfl⟩ := Nat.exists_eq_succ_of_ne_zero (Nat.ne_zero_of_lt hfuel)
      rw [dumpItems, List.append_nil] at hfuel
      apply scanItems_last
      · exact hx level fuel _ (separated_newline outer (by decide) (by decide)) (by omega)
      · rw [dumpItems, List.nil_append, l.skip_newline, skipBlanks_cons (by decide)]
  | cons y ys ih =>
      obtain ⟨fuel, rfl⟩ := Nat.exists_eq_succ_of_ne_zero (Nat.ne_zero_of_lt hfuel)
      rw [List.forall_mem_cons] at hxs hopens
      have hlength := congrArg List.length (dumpItems_append (l := l) level y ys [])
      simp only [List.length_append, List.length_cons, List.length_nil] at hlength hfuel
      have hskip := ((hopens.1 level).append
        (dumpItems l level ys ++ (l.newline outer ++ ']' :: rest))).skipBlanks
      rw [dumpItems_append]
      refine scanItems_more (hx level fuel _ (separated_cons (by decide) (by decide) _) (by omega))
        (skipBlanks_cons (by decide) _) ?_
      rw [l.skip_comma, hskip]
      apply ih hxs.1 hxs.2 hopens.2
      rw [List.length_append]
      omega

theorem skipBlanks_quote (key : String) (rest : List Char) :
    skipBlanks (quote key ++ rest) = quote key ++ rest :=
  skipBlanks_cons (by decide) _

theorem scanEntries_dump {key : String} {es : List (String × Json)} (hx : Reads float l x)
    (hes : ∀ e ∈ es, Reads float l e.2) {level outer : ℕ} (hopens : Opens (dump l level x))
    (hopens' : ∀ e ∈ es, ∀ level, Opens (dump l level e.2))
    (hfuel : 2 * (dump l level x ++ dumpEntries l level es).length + 1 ≤ fuel) :
    scanEntries float fuel (quote key ++ (l.colon ++ (dump l level x ++ (dumpEntries l level es ++
      (l.newline outer ++ '}' :: rest))))) = .ok ((key, x) :: es, rest) := by
  induction es generalizing key x fuel with
  | nil =>
      obtain ⟨fuel, rfl⟩ := Nat.exists_eq_succ_of_ne_zero (Nat.ne_zero_of_lt hfuel)
      rw [dumpEntries, List.append_nil] at hfuel
      have hvalue := hx level fuel (l.newline outer ++ '}' :: rest)
        (separated_newline outer (by decide) (by decide)) (by omega)
      rw [dumpEntries, List.nil_append, Layout.colon_append]
      apply scanEntries_last (skipBlanks_cons (by decide) _)
      · rw [l.skip_colon, (hopens.append _).skipBlanks]
        exact hvalue
      · rw [l.skip_newline, skipBlanks_cons (by decide)]
  | cons e es ih =>
      obtain ⟨name, y⟩ := e
      obtain ⟨fuel, rfl⟩ := Nat.exists_eq_succ_of_ne_zero (Nat.ne_zero_of_lt hfuel)
      rw [List.forall_mem_cons] at hes hopens'
      have hlength := congrArg List.length (dumpEntries_append (l := l) level name y es [])
      simp only [List.length_append, List.length_cons, List.length_nil] at hlength hfuel
      have hvalue := hx level fuel (dumpEntries l level ((name, y) :: es) ++
        (l.newline outer ++ '}' :: rest)) (by
          rw [dumpEntries_append]
          exact separated_cons (by decide) (by decide) _) (by omega)
      rw [← (hopens.append _).skipBlanks, ← l.skip_colon, dumpEntries_append] at hvalue
      rw [Layout.colon_append, dumpEntries_append]
      refine scanEntries_more (skipBlanks_cons (by decide) _) hvalue (skipBlanks_cons (by decide) _) ?_
      rw [l.skip_comma, skipBlanks_quote]
      apply ih (x := y) hes.1 hes.2 (hopens'.1 level) hopens'.2
      rw [List.length_append]
      omega

theorem scanAtom_number {n : ℕ} {negative : Bool} {tail : List Char}
    (htext : text = signText negative ++ (digitsOf n ++ tail))
    (h : scanNumber float (text ++ rest) = .ok (x, rest)) :
    scanAtom float (text ++ rest) = .ok (x, rest) := by
  have hconstant := @scanConstant_number negative n (tail ++ rest)
  rw [scanAtom]
  rw [htext] at h ⊢
  simp only [List.append_assoc] at h ⊢
  rw [hconstant]
  exact h

theorem scanAtom_constant {name : String} (h : (name, x) ∈ constants) (rest : List Char) :
    scanAtom float (name.toList ++ rest) = .ok (x, rest) := by
  rw [scanAtom, scanConstant_of_mem h]

/-- A number is no text, list or dictionary. -/
theorem head_number {n : ℕ} {negative : Bool} {tail : List Char}
    (htext : text = signText negative ++ (digitsOf n ++ tail)) :
    ∀ c ∈ (text ++ rest).head?, c ∉ ['"', '[', '{'] := by
  intro c hc
  rw [htext] at hc
  cases negative with
  | true =>
      obtain rfl := Option.some.inj hc
      decide
  | false =>
      cases hdigits : digitsOf n with
      | nil => exact absurd hdigits Nat.toDigits_ne_nil
      | cons d digits =>
          have hd : d.isDigit := isDigit_of_mem_digitsOf (hdigits ▸ List.mem_cons_self)
          rw [hdigits] at hc
          obtain rfl := Option.some.inj hc
          simp only [List.mem_cons, List.not_mem_nil, or_false]
          rintro (rfl | rfl | rfl) <;> revert hd <;> decide

theorem reads_constant (name : String) (h : (name, x) ∈ constants)
    (hdump : ∀ level, dump l level x = name.toList) : Reads float l x := by
  intro level fuel rest hrest hfuel
  have hhead : ∀ c ∈ (name.toList ++ rest).head?, c ∉ ['"', '[', '{'] := by
    simp only [constants, List.mem_cons, List.not_mem_nil, or_false, Prod.mk.injEq] at h
    rcases h with ⟨rfl, -⟩ | ⟨rfl, -⟩ | ⟨rfl, -⟩ | ⟨rfl, -⟩ | ⟨rfl, -⟩ | ⟨rfl, -⟩ <;> simp
  have hpos : 0 < (dump l level x).length := by
    rw [hdump]
    simp only [constants, List.mem_cons, List.not_mem_nil, or_false, Prod.mk.injEq] at h
    rcases h with ⟨rfl, -⟩ | ⟨rfl, -⟩ | ⟨rfl, -⟩ | ⟨rfl, -⟩ | ⟨rfl, -⟩ | ⟨rfl, -⟩ <;> simp
  obtain ⟨fuel, rfl⟩ := Nat.exists_eq_succ_of_ne_zero (by omega : fuel ≠ 0)
  rw [hdump, scanValue_atom hhead, scanAtom_constant h]

theorem reads_number {n : ℕ} {negative : Bool} {tail : List Char}
    (hdump : ∀ level, dump l level x = text) (htext : text = signText negative ++ (digitsOf n ++ tail))
    (h : ∀ rest, Separated rest → scanNumber float (text ++ rest) = .ok (x, rest)) :
    Reads float l x := by
  intro level fuel rest hrest hfuel
  obtain ⟨c, rest', hopens, -⟩ := opens_number negative n tail
  have hpos : 0 < text.length := by
    rw [htext, hopens]
    exact Nat.succ_pos _
  rw [hdump] at hfuel ⊢
  obtain ⟨fuel, rfl⟩ := Nat.exists_eq_succ_of_ne_zero (by omega : fuel ≠ 0)
  rw [scanValue_atom (head_number htext), scanAtom_number htext (h rest hrest)]

theorem reads_list {xs : List Json} (h : ∀ x ∈ xs, Reads float l x)
    (hopens : ∀ x ∈ xs, ∀ level, Opens (dump l level x)) : Reads float l (list xs) := by
  intro level fuel rest hrest hfuel
  cases xs with
  | nil =>
      obtain ⟨fuel, rfl⟩ := Nat.exists_eq_succ_of_ne_zero (Nat.ne_zero_of_lt hfuel)
      rw [dump]
      rfl
  | cons x xs =>
      obtain ⟨fuel, rfl⟩ := Nat.exists_eq_succ_of_ne_zero (Nat.ne_zero_of_lt hfuel)
      rw [List.forall_mem_cons] at h hopens
      rw [dump] at hfuel ⊢
      have hitems := @scanItems_dump float l x fuel rest xs h.1 h.2 hopens.2 (level + 1) level (by
        simp only [List.length_cons, List.length_append] at hfuel ⊢
        omega)
      have hskip := ((hopens.1 (level + 1)).append (dumpItems l (level + 1) xs ++
        (l.newline level ++ ']' :: rest))).skipBlanks
      simp only [List.cons_append, List.append_assoc, List.nil_append]
      apply scanValue_list
      · rw [l.skip_newline, hskip]
        exact (hopens.1 (level + 1)).append _
      · rw [l.skip_newline, hskip]
        exact hitems

theorem reads_dict {es : List (String × Json)} (hkeys : (es.map Prod.fst).Nodup)
    (h : ∀ e ∈ es, Reads float l e.2) (hopens : ∀ e ∈ es, ∀ level, Opens (dump l level e.2)) :
    Reads float l (dict es) := by
  intro level fuel rest hrest hfuel
  cases es with
  | nil =>
      obtain ⟨fuel, rfl⟩ := Nat.exists_eq_succ_of_ne_zero (Nat.ne_zero_of_lt hfuel)
      rw [dump]
      rfl
  | cons e es =>
      obtain ⟨key, x⟩ := e
      obtain ⟨fuel, rfl⟩ := Nat.exists_eq_succ_of_ne_zero (Nat.ne_zero_of_lt hfuel)
      rw [List.forall_mem_cons] at h hopens
      rw [dump] at hfuel ⊢
      have hentries := @scanEntries_dump float l x fuel rest key es h.1 h.2 (level + 1) level
        (hopens.1 _) hopens.2 (by
          simp only [List.length_cons, List.length_append] at hfuel ⊢
          omega)
      have hdict := Dict.ofPairs_entries hkeys
      simp only [List.cons_append, List.append_assoc, List.nil_append]
      rw [← hdict]
      apply scanValue_dict
      · rw [l.skip_newline, skipBlanks_quote]
        rfl
      · rw [l.skip_newline, skipBlanks_quote]
        exact hentries

/-- A value is read back from where it was written. -/
theorem Printable.reads (h : Printable float x) : Reads float l x := by
  induction h with
  | null => exact reads_constant "null" (by simp [constants]) fun _ ↦ by rw [dump]
  | bool b =>
      cases b with
      | true =>
          apply reads_constant "true" (by simp [constants])
          intro level
          rw [dump]
          rfl
      | false =>
          apply reads_constant "false" (by simp [constants])
          intro level
          rw [dump]
          rfl
  | int h =>
      rename_i n
      have htext := toList_toString_int n
      rw [← List.append_nil (digitsOf _)] at htext
      exact reads_number (fun _ ↦ by rw [dump]) htext fun _ ↦ scanNumber_int h
  | float h =>
      obtain ⟨negative, n, fraction, exponent, htext, -⟩ := h.parts
      exact reads_number (fun _ ↦ by rw [dump]) htext fun _ ↦ scanNumber_float h
  | infinity negative =>
      cases negative with
      | true =>
          apply reads_constant "-Infinity" (by simp [constants])
          intro level
          rw [dump]
          rfl
      | false =>
          apply reads_constant "Infinity" (by simp [constants])
          intro level
          rw [dump]
          rfl
  | nan => exact reads_constant "NaN" (by simp [constants]) fun _ ↦ by rw [dump]
  | str s =>
      intro level fuel rest hrest hfuel
      obtain ⟨fuel, rfl⟩ := Nat.exists_eq_succ_of_ne_zero (Nat.ne_zero_of_lt hfuel)
      rw [dump]
      exact scanValue_str s rest
  | list h ih => exact reads_list ih fun x hx level ↦ (h x hx).opens level
  | dict hkeys h ih => exact reads_dict hkeys ih fun e he level ↦ (h e he).opens level

/-- `json.loads(json.dumps(x)) == x`, and the line break behind the text does no harm. -/
theorem loads_dump (h : Printable float x) (l : Layout) {blanks : List Char}
    (hblanks : ∀ c ∈ blanks, isBlank c) : loads float (dump l 0 x ++ blanks) = .ok x := by
  have hseparated : Separated blanks := by
    intro c hc
    have hblank := hblanks c (List.mem_of_mem_head? hc)
    simp only [isBlank, Bool.or_eq_true, decide_eq_true_eq] at hblank
    rcases hblank with ((rfl | rfl) | rfl) | rfl <;> decide
  have hread : scanValue float (2 * (dump l 0 x ++ blanks).length + 1) (dump l 0 x ++ blanks) =
      .ok (x, blanks) := by
    apply h.reads 0 _ blanks hseparated
    rw [List.length_append]
    omega
  have hend : skipBlanks blanks = [] := by
    have hskip := skipBlanks_append hblanks []
    rwa [List.append_nil] at hskip
  rw [loads, ((h.opens 0).append blanks).skipBlanks, hread]
  exact if_pos hend

end Values

end VehicleOta.Json
