import VehicleOta.Common.JsonRoundTrip

/-!
# Canonical texts

The text with sorted keys and without blanks is the compact text of the value whose dictionaries
are sorted, so it determines that value; and every text is ASCII, so its bytes determine it.
-/

namespace VehicleOta

/-! ## Bytes -/

/-- `text.encode("utf-8")` -/
def encodeUtf8 (text : List Char) : Bytes := (String.ofList text).toUTF8.toList

/-- `data.decode("utf-8")`, which refuses other data. -/
def decodeUtf8? (data : Bytes) : Option (List Char) :=
  (String.fromUTF8? ⟨data.toArray⟩).map String.toList

theorem decodeUtf8?_encodeUtf8 (text : List Char) : decodeUtf8? (encodeUtf8 text) = some text := by
  have hlist : encodeUtf8 text = (String.ofList text).toByteArray.data.toList := by
    rw [encodeUtf8, String.toUTF8_eq_toByteArray, ByteArray.toList, toList_loop, List.reverse_nil,
      List.nil_append, List.drop_zero]
  have hdata : (⟨(encodeUtf8 text).toArray⟩ : ByteArray) = (String.ofList text).toByteArray := by
    rw [hlist]
  have hvalid : (String.ofList text).toByteArray.IsValidUTF8 := (String.ofList text).isValidUTF8
  rw [decodeUtf8?, hdata, String.fromUTF8?, dif_pos hvalid, Option.map_some]
  exact congrArg some String.toList_ofList

namespace Json

/-! ## Sorted dictionaries -/

mutual

/-- The value with the entries of its dictionaries in the order of their keys. -/
def sorted : Json → Json
  | list xs => list (sortedItems xs)
  | dict es => dict ((sortedEntries es).insertionSort fun e f ↦ e.1 ≤ f.1)
  | null => null
  | bool b => bool b
  | int n => int n
  | float value text => float value text
  | infinity negative => infinity negative
  | nan => nan
  | str s => str s

def sortedItems : List Json → List Json
  | [] => []
  | x :: xs => sorted x :: sortedItems xs

def sortedEntries : List (String × Json) → List (String × Json)
  | [] => []
  | (key, x) :: es => (key, sorted x) :: sortedEntries es

end

theorem sortedItems_eq (xs : List Json) : sortedItems xs = xs.map sorted := by
  induction xs with
  | nil => rw [sortedItems, List.map_nil]
  | cons x xs ih => rw [sortedItems, List.map_cons, ih]

theorem sortedEntries_eq (es : List (String × Json)) :
    sortedEntries es = es.map fun e ↦ (e.1, sorted e.2) := by
  induction es with
  | nil => rw [sortedEntries, List.map_nil]
  | cons e es ih =>
      obtain ⟨key, x⟩ := e
      rw [sortedEntries, List.map_cons, ih]

/-- The entries of a sorted dictionary, in their order. -/
def sortEntries (es : List (String × Json)) : List (String × Json) :=
  (es.map fun e ↦ (e.1, sorted e.2)).insertionSort fun e f ↦ e.1 ≤ f.1

theorem sorted_list (xs : List Json) : sorted (list xs) = list (xs.map sorted) := by
  rw [sorted, sortedItems_eq]

theorem sorted_dict (es : List (String × Json)) : sorted (dict es) = dict (sortEntries es) := by
  rw [sorted, sortedEntries_eq, sortEntries]

theorem perm_sortEntries (es : List (String × Json)) :
    (sortEntries es).Perm (es.map fun e ↦ (e.1, sorted e.2)) :=
  List.perm_insertionSort _ _

theorem mem_sortEntries {es : List (String × Json)} {f : String × Json} :
    f ∈ sortEntries es ↔ ∃ e ∈ es, (e.1, sorted e.2) = f := by
  rw [(perm_sortEntries es).mem_iff, List.mem_map]

theorem perm_keys_sortEntries (es : List (String × Json)) :
    ((sortEntries es).map Prod.fst).Perm (es.map Prod.fst) := by
  have hperm := (perm_sortEntries es).map Prod.fst
  rwa [List.map_map] at hperm

section Printed

variable {float : List Char → Json} {x y : Json}

theorem Printable.sorted (h : Printable float x) : Printable float x.sorted := by
  induction h with
  | list h ih =>
      rw [sorted_list]
      apply Printable.list
      intro y hy
      obtain ⟨x, hx, rfl⟩ := List.mem_map.mp hy
      exact ih x hx
  | dict hkeys h ih =>
      rw [sorted_dict]
      apply Printable.dict
      · exact (perm_keys_sortEntries _).nodup_iff.mpr hkeys
      · intro f hf
        obtain ⟨e, he, rfl⟩ := mem_sortEntries.mp hf
        exact ih e he
  | null => rw [Json.sorted]; exact .null
  | bool b => rw [Json.sorted]; exact .bool b
  | int h => rw [Json.sorted]; exact .int h
  | float h => rw [Json.sorted]; exact .float h
  | infinity negative => rw [Json.sorted]; exact .infinity negative
  | nan => rw [Json.sorted]; exact .nan
  | str s => rw [Json.sorted]; exact .str s

/-! ## The canonical text -/

theorem dumpsItems_eq (xs : List Json) : dumpsItems xs = xs.map dumps := by
  induction xs with
  | nil => rw [dumpsItems, List.map_nil]
  | cons x xs ih => rw [dumpsItems, List.map_cons, ih]

theorem dumpsEntries_eq (es : List (String × Json)) :
    dumpsEntries es = es.map fun e ↦ (e.1, dumps e.2) := by
  induction es with
  | nil => rw [dumpsEntries, List.map_nil]
  | cons e es ih =>
      obtain ⟨key, x⟩ := e
      rw [dumpsEntries, List.map_cons, ih]

theorem flatten_intersperse (part : List Char) (parts : List (List Char)) :
    ((part :: parts).intersperse [',']).flatten = part ++ parts.flatMap (',' :: ·) := by
  induction parts generalizing part with
  | nil => simp
  | cons next parts ih =>
      rw [List.intersperse_cons_cons, List.flatten_cons, List.flatten_cons, ih, List.flatMap_cons]
      rfl

theorem dumpItems_compact (level : ℕ) (xs : List Json) :
    dumpItems .compact level xs = (xs.map (dump .compact level)).flatMap (',' :: ·) := by
  induction xs with
  | nil => rw [dumpItems]; rfl
  | cons x xs ih => rw [dumpItems, ih]; rfl

theorem dumpEntries_compact (level : ℕ) (es : List (String × Json)) :
    dumpEntries .compact level es =
      (es.map fun e ↦ quote e.1 ++ ':' :: dump .compact level e.2).flatMap (',' :: ·) := by
  induction es with
  | nil => rw [dumpEntries]; rfl
  | cons e es ih =>
      obtain ⟨key, x⟩ := e
      rw [dumpEntries, ih, List.map_cons, List.flatMap_cons]
      simp [Layout.comma, Layout.colon, Layout.compact, Layout.newline]

theorem dump_compact_list (level : ℕ) (xs : List Json) :
    dump .compact level (list xs) =
      '[' :: ((xs.map (dump .compact (level + 1))).intersperse [',']).flatten ++ [']'] := by
  cases xs with
  | nil => rw [dump]; rfl
  | cons x xs =>
      rw [dump, dumpItems_compact, List.map_cons, flatten_intersperse]
      rfl

theorem dump_compact_dict (level : ℕ) (es : List (String × Json)) :
    dump .compact level (dict es) =
      '{' :: ((es.map fun e ↦ quote e.1 ++ ':' :: dump .compact (level + 1) e.2).intersperse
        [',']).flatten ++ ['}'] := by
  cases es with
  | nil => rw [dump]; rfl
  | cons e es =>
      obtain ⟨key, x⟩ := e
      rw [dump, dumpEntries_compact, List.map_cons, flatten_intersperse]
      simp [Layout.colon, Layout.compact, Layout.newline]

/-- Sorting the keys and then writing is writing the sorted value. -/
theorem Printable.dumps_eq (h : Printable float x) (level : ℕ) :
    dumps x = dump .compact level x.sorted := by
  induction h generalizing level with
  | list h ih =>
      rename_i xs
      have hitems : xs.map dumps = (xs.map Json.sorted).map (dump .compact (level + 1)) := by
        rw [List.map_map]
        exact List.map_congr_left fun x hx ↦ ih x hx (level + 1)
      rw [sorted_list, dump_compact_list, dumps, dumpsItems_eq, hitems]
  | dict hkeys h ih =>
      rename_i es
      have hentries : (es.map fun e ↦ (e.1, dumps e.2)) =
          (es.map fun e ↦ (e.1, e.2.sorted)).map fun e ↦ (e.1, dump .compact (level + 1) e.2) := by
        rw [List.map_map]
        apply List.map_congr_left
        intro e he
        exact Prod.ext rfl (ih e he (level + 1))
      have hsort := List.map_insertionSort (fun e f : String × Json ↦ e.1 ≤ f.1)
        (fun e f : String × List Char ↦ e.1 ≤ f.1)
        (fun e : String × Json ↦ (e.1, dump .compact (level + 1) e.2))
        (es.map fun e ↦ (e.1, e.2.sorted)) fun _ _ _ _ ↦ Iff.rfl
      rw [sorted_dict, dump_compact_dict, dumps, dumpsEntries_eq, hentries, ← hsort, List.map_map]
      rfl
  | null => rw [dumps, Json.sorted, dump]
  | bool b => rw [dumps, Json.sorted, dump]
  | int h => rw [dumps, Json.sorted, dump]
  | float h => rw [dumps, Json.sorted, dump]
  | infinity negative => rw [dumps, Json.sorted, dump]
  | nan => rw [dumps, Json.sorted, dump]
  | str s => rw [dumps, Json.sorted, dump]

theorem Printable.loads_dumps (h : Printable float x) : loads float (dumps x) = .ok x.sorted := by
  have hread := @loads_dump float x.sorted h.sorted .compact [] fun _ hc ↦ by cases hc
  rw [h.dumps_eq 0, ← List.append_nil (dump _ _ _)]
  exact hread

/-! ## ASCII -/

/-- An ASCII character that is not a control character. -/
def Graphic (c : Char) : Prop := 0x20 ≤ c.toNat ∧ c.toNat < 128

instance : DecidablePred Graphic := fun c ↦ by
  unfold Graphic
  infer_instance

/-- A character of a text in this layout. -/
def Written (l : Layout) (c : Char) : Prop := Graphic c ∨ (l.indent.isSome ∧ c = '\n')

theorem Written.ascii {l : Layout} {c : Char} (h : Written l c) : c.toNat < 128 := by
  rcases h with h | ⟨-, rfl⟩
  · exact h.2
  · decide

section Characters

variable {p : Char → Prop} {text rest : List Char}

theorem forall_append (htext : ∀ c ∈ text, p c) (hrest : ∀ c ∈ rest, p c) : ∀ c ∈ text ++ rest, p c :=
  List.forall_mem_append.mpr ⟨htext, hrest⟩

theorem forall_cons {c : Char} (hc : p c) (htext : ∀ d ∈ text, p d) : ∀ d ∈ c :: text, p d :=
  List.forall_mem_cons.mpr ⟨hc, htext⟩

theorem forall_single {c : Char} (hc : p c) : ∀ d ∈ [c], p d := List.forall_mem_singleton.mpr hc

theorem graphic_of_all (h : text.all fun c ↦ decide (Graphic c)) : ∀ c ∈ text, Graphic c :=
  fun c hc ↦ of_decide_eq_true (List.all_eq_true.mp h c hc)

end Characters

theorem graphic_hexDigit : ∀ d : Fin 16, Graphic (Hash.hexDigit d) := by decide

theorem graphic_hex4 (n : ℕ) : ∀ c ∈ hex4 n, Graphic c := by
  have hdigit : ∀ m : ℕ, Graphic (Hash.hexDigit (m % 16)) := fun m ↦
    graphic_hexDigit ⟨m % 16, Nat.mod_lt _ (by decide)⟩
  refine forall_cons (by decide) (forall_cons (by decide) ?_)
  exact forall_cons (hdigit _) (forall_cons (hdigit _) (forall_cons (hdigit _)
    (forall_single (hdigit _))))

theorem graphic_escapeChar (c : Char) : ∀ d ∈ escapeChar c, Graphic d := by
  unfold escapeChar
  split_ifs with hquote hslash hn hr ht hb hf hprintable hplane
  · exact graphic_of_all rfl
  · exact graphic_of_all rfl
  · exact graphic_of_all rfl
  · exact graphic_of_all rfl
  · exact graphic_of_all rfl
  · exact graphic_of_all rfl
  · exact graphic_of_all rfl
  · exact forall_single ⟨hprintable.1, Nat.lt_succ_of_lt (Nat.lt_succ_of_le hprintable.2)⟩
  · exact graphic_hex4 _
  · exact forall_append (graphic_hex4 _) (graphic_hex4 _)

theorem graphic_quote (s : String) : ∀ c ∈ quote s, Graphic c := by
  refine forall_cons (by decide) (forall_append ?_ (forall_single (by decide)))
  intro c hc
  obtain ⟨d, -, hd⟩ := List.mem_flatMap.mp hc
  exact graphic_escapeChar d c hd

theorem graphic_of_isDigit {c : Char} (h : c.isDigit) : Graphic c := by
  simp only [Char.isDigit, ge_iff_le, Bool.and_eq_true, decide_eq_true_eq] at h
  have hlow : 48 ≤ c.toNat := UInt32.le_iff_toNat_le.mp h.1
  have hhigh : c.toNat ≤ 57 := UInt32.le_iff_toNat_le.mp h.2
  exact ⟨by omega, by omega⟩

theorem graphic_signText (negative : Bool) : ∀ c ∈ signText negative, Graphic c := by
  cases negative with
  | true => exact forall_single (by decide)
  | false => exact fun _ hc ↦ by cases hc

theorem graphic_digitsOf (n : ℕ) : ∀ c ∈ digitsOf n, Graphic c :=
  fun _ hc ↦ graphic_of_isDigit (isDigit_of_mem_digitsOf hc)

theorem IsFraction.graphic {text : List Char} (h : IsFraction text) : ∀ c ∈ text, Graphic c := by
  rcases h with rfl | ⟨digits, rfl, -, hdigits⟩
  · exact fun _ hc ↦ by cases hc
  · exact forall_cons (by decide) fun c hc ↦ graphic_of_isDigit (hdigits c hc)

theorem IsExponent.graphic {text : List Char} (h : IsExponent text) : ∀ c ∈ text, Graphic c := by
  rcases h with rfl | ⟨sign, digits, rfl, hsign, -, hdigits⟩
  · exact fun _ hc ↦ by cases hc
  · refine forall_cons (by decide) (forall_cons ?_ fun c hc ↦ graphic_of_isDigit (hdigits c hc))
    rcases List.mem_pair.mp hsign with rfl | rfl <;> decide

variable {l : Layout}

theorem graphic_replicate (n : ℕ) : ∀ c ∈ List.replicate n ' ', Graphic c := by
  intro c hc
  rw [List.eq_of_mem_replicate hc]
  decide

theorem written_of_graphic {text : List Char} (h : ∀ c ∈ text, Graphic c) : ∀ c ∈ text, Written l c :=
  fun c hc ↦ Or.inl (h c hc)

theorem written_newline (level : ℕ) : ∀ c ∈ l.newline level, Written l c := by
  intro c hc
  unfold Layout.newline at hc
  split at hc
  · cases hc
  · rename_i hindent
    rcases List.mem_cons.mp hc with rfl | hc
    · exact Or.inr ⟨by rw [hindent]; rfl, rfl⟩
    · exact Or.inl (graphic_replicate _ c hc)

theorem written_comma (level : ℕ) : ∀ c ∈ l.comma level, Written l c := by
  refine forall_cons (Or.inl (by decide)) (forall_append ?_ (written_newline level))
  exact written_of_graphic (graphic_replicate _)

theorem written_colon : ∀ c ∈ l.colon, Written l c :=
  written_of_graphic (forall_cons (by decide) (graphic_replicate _))

theorem written_dumpItems {xs : List Json} {level : ℕ}
    (h : ∀ x ∈ xs, ∀ c ∈ dump l level x, Written l c) :
    ∀ c ∈ dumpItems l level xs, Written l c := by
  induction xs with
  | nil =>
      rw [dumpItems]
      exact fun _ hc ↦ by cases hc
  | cons x xs ih =>
      rw [List.forall_mem_cons] at h
      rw [dumpItems]
      exact forall_append (written_comma level) (forall_append h.1 (ih h.2))

theorem written_dumpEntries {es : List (String × Json)} {level : ℕ}
    (h : ∀ e ∈ es, ∀ c ∈ dump l level e.2, Written l c) :
    ∀ c ∈ dumpEntries l level es, Written l c := by
  induction es with
  | nil =>
      rw [dumpEntries]
      exact fun _ hc ↦ by cases hc
  | cons e es ih =>
      obtain ⟨key, x⟩ := e
      rw [List.forall_mem_cons] at h
      rw [dumpEntries]
      exact forall_append (written_comma level) (forall_append (written_of_graphic (graphic_quote key))
        (forall_append written_colon (forall_append h.1 (ih h.2))))

theorem written_brackets {opening closing : Char} {text : List Char} (hopening : Graphic opening)
    (hclosing : Graphic closing) (inner outer : ℕ) (h : ∀ c ∈ text, Written l c) :
    ∀ c ∈ opening :: (l.newline inner ++ text ++ (l.newline outer ++ [closing])), Written l c := by
  refine forall_cons (Or.inl hopening) (forall_append ?_ ?_)
  · exact forall_append (written_newline inner) h
  · exact forall_append (written_newline outer) (forall_single (Or.inl hclosing))

theorem Printable.written (h : Printable float x) (level : ℕ) :
    ∀ c ∈ dump l level x, Written l c := by
  induction h generalizing level with
  | null =>
      rw [dump]
      exact written_of_graphic (graphic_of_all rfl)
  | bool b =>
      rw [dump]
      cases b with
      | true => exact written_of_graphic (graphic_of_all rfl)
      | false => exact written_of_graphic (graphic_of_all rfl)
  | int h =>
      rw [dump, toList_toString_int]
      exact written_of_graphic (forall_append (graphic_signText _) (graphic_digitsOf _))
  | float h =>
      obtain ⟨negative, n, fraction, exponent, htext, hfraction, hexponent, -⟩ := h.parts
      rw [dump, htext]
      exact written_of_graphic (forall_append (graphic_signText _) (forall_append
        (graphic_digitsOf _) (forall_append hfraction.graphic hexponent.graphic)))
  | infinity negative =>
      rw [dump]
      cases negative with
      | true => exact written_of_graphic (graphic_of_all rfl)
      | false => exact written_of_graphic (graphic_of_all rfl)
  | nan =>
      rw [dump]
      exact written_of_graphic (graphic_of_all rfl)
  | str s =>
      rw [dump]
      exact written_of_graphic (graphic_quote s)
  | list h ih =>
      rename_i xs
      cases xs with
      | nil =>
          rw [dump]
          exact written_of_graphic (graphic_of_all rfl)
      | cons x xs =>
          rw [List.forall_mem_cons] at ih
          rw [dump]
          apply written_brackets (by decide) (by decide)
          exact forall_append (ih.1 _) (written_dumpItems fun y hy ↦ ih.2 y hy _)
  | dict hkeys h ih =>
      rename_i es
      cases es with
      | nil =>
          rw [dump]
          exact written_of_graphic (graphic_of_all rfl)
      | cons e es =>
          obtain ⟨key, x⟩ := e
          rw [List.forall_mem_cons] at ih
          rw [dump]
          apply written_brackets (by decide) (by decide)
          refine forall_append (written_of_graphic (graphic_quote key)) ?_
          refine forall_append written_colon ?_
          exact forall_append (ih.1 _) (written_dumpEntries fun f hf ↦ ih.2 f hf _)

theorem Printable.encode_dump (h : Printable float x) {tail : List Char}
    (htail : ∀ c ∈ tail, c.toNat < 128) (level : ℕ) :
    encodeUtf8 (dump l level x ++ tail) =
      (dump l level x ++ tail).map fun c ↦ UInt8.ofNat c.toNat :=
  encode_ascii (forall_append (fun c hc ↦ (h.written level c hc).ascii) htail)

theorem ascii_injective {text other : List Char} (htext : ∀ c ∈ text, c.toNat < 128)
    (hother : ∀ c ∈ other, c.toNat < 128)
    (h : (text.map fun c ↦ UInt8.ofNat c.toNat) = other.map fun c ↦ UInt8.ofNat c.toNat) :
    text = other := by
  rw [← decode_ascii htext, h, decode_ascii hother]

/-- The signed bytes of a value determine it up to the order of its dictionaries. -/
theorem Printable.sorted_eq_of_canonicalBytes (hx : Printable float x) (hy : Printable float y)
    (h : x.canonicalBytes = y.canonicalBytes) : x.sorted = y.sorted := by
  have htext : dumps x = dumps y := by
    apply ascii_injective _ _ h
    · rw [hx.dumps_eq 0]
      exact fun c hc ↦ (hx.sorted.written 0 c hc).ascii
    · rw [hy.dumps_eq 0]
      exact fun c hc ↦ (hy.sorted.written 0 c hc).ascii
  have hread := hx.loads_dumps
  rw [htext, hy.loads_dumps] at hread
  exact (Except.ok.inj hread).symm

end Printed

end Json

end VehicleOta
