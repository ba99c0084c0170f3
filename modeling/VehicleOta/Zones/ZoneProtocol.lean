import VehicleOta.Common.CanonicalJson

/-!
# Messages of the zones

`zones/base/zone_protocol.py`: one JSON text and a line break for a message.  The reader is given
what its calls of `recv` return; behind the last of them the other side has closed the connection.
-/

namespace VehicleOta

/-- The exceptions on a connection to a zone.  A `JSONDecodeError` or a `UnicodeDecodeError` stands
without its text. -/
inductive ZoneError where
  | connectionError (message : String)
  | decodeError
  | python (error : PyError)
  deriving DecidableEq

namespace ZoneProtocol

def maxMessageSize : ℕ := 1024 * 1024

def lineFeed : UInt8 := 0x0A

def encodeMessage (payload : Json) : Bytes := encodeUtf8 (payload.dump .compact 0 ++ ['\n'])

section Reading

-- `float(text)`
variable (float : List Char → Json)

/-- `json.loads(line.decode("utf-8"))` -/
def parseLine (line : Bytes) : Except ZoneError Json :=
  match decodeUtf8? line with
  | none => .error .decodeError
  | some text =>
      match Json.loads float text with
      | .ok message => .ok message
      | .error .decodeError => .error .decodeError
      | .error (.valueError e) => .error (.python e)

/-- The loop of `read_message`, with the chunks so far in front of it. -/
def readFrom (chunks : Bytes) : List (Except ZoneError Bytes) → Except ZoneError Json
  | [] => .error (.connectionError "connection closed before complete zone message")
  | .error e :: _ => .error e
  | .ok chunk :: received =>
      if chunk = [] then
        .error (.connectionError "connection closed before complete zone message")
      else if maxMessageSize < (chunks ++ chunk).length then
        .error (.python (.valueError "zone message exceeded maximum size"))
      else if lineFeed ∈ chunk then parseLine float ((chunks ++ chunk).takeWhile (· ≠ lineFeed))
      else readFrom (chunks ++ chunk) received

/-- `read_message` -/
def readMessage (received : List (Except ZoneError Bytes)) : Except ZoneError Json :=
  readFrom float [] received

end Reading

/-! ## Messages in pieces -/

/-- The pieces in which the bytes arrive; none of them is empty. -/
structure Arrives (data : Bytes) (received : List (Except ZoneError Bytes)) : Prop where
  pieces : ∃ chunks : List Bytes, received = chunks.map .ok ∧ chunks.flatten = data ∧
    ∀ chunk ∈ chunks, chunk ≠ []

variable {float : List Char → Json} {payload : Json}

/-- A part of the data is a part of the line, or all of it. -/
theorem part_of_line {part rest line : Bytes} (h : part ++ rest = line ++ [lineFeed]) :
    (part = line ++ [lineFeed] ∧ rest = []) ∨ ∃ tail, line = part ++ tail := by
  rcases List.append_eq_append_iff.mp h with ⟨tail, hline, -⟩ | ⟨tail, hpart, hlast⟩
  · exact Or.inr ⟨tail, hline⟩
  · cases tail with
    | nil => exact Or.inr ⟨[], by rw [hpart, List.append_nil, List.append_nil]⟩
    | cons b tail =>
        obtain ⟨rfl, hnil⟩ := List.cons.inj hlast
        obtain ⟨rfl, rfl⟩ := List.append_eq_nil_iff.mp hnil.symm
        exact Or.inl ⟨hpart, rfl⟩

theorem takeWhile_line {line : Bytes} (h : lineFeed ∉ line) :
    (line ++ [lineFeed]).takeWhile (· ≠ lineFeed) = line := by
  rw [List.takeWhile_append_of_pos]
  · simp
  · intro b hb
    exact decide_eq_true fun heq ↦ h (heq ▸ hb)

/-- Induction on the pieces: what has been read is a part of the line without its end. -/
theorem readFrom_chunks {line before : Bytes} {chunks : List Bytes}
    (hdata : before ++ chunks.flatten = line ++ [lineFeed]) (hline : lineFeed ∉ line)
    (hbefore : lineFeed ∉ before) (hne : ∀ chunk ∈ chunks, chunk ≠ []) :
    readFrom float before (chunks.map .ok) =
      if line.length < maxMessageSize then parseLine float line
      else .error (.python (.valueError "zone message exceeded maximum size")) := by
  induction chunks generalizing before with
  | nil =>
      rw [List.flatten_nil, List.append_nil] at hdata
      rw [hdata] at hbefore
      exact absurd (List.mem_append_right _ (List.mem_singleton_self _)) hbefore
  | cons chunk chunks ih =>
      rw [List.forall_mem_cons] at hne
      rw [List.flatten_cons, ← List.append_assoc] at hdata
      rw [List.map_cons, readFrom, if_neg hne.1]
      rcases part_of_line hdata with ⟨hwhole, -⟩ | ⟨tail, htail⟩
      · have hmem : lineFeed ∈ chunk := by
          have hlast : lineFeed ∈ before ++ chunk := by
            rw [hwhole]
            exact List.mem_append_right _ (List.mem_singleton_self _)
          exact (List.mem_append.mp hlast).resolve_left hbefore
        rw [hwhole, takeWhile_line hline, if_pos hmem, List.length_append, List.length_singleton]
        by_cases hsize : line.length < maxMessageSize
        · rw [if_pos hsize, if_neg (by omega)]
        · rw [if_neg hsize, if_pos (by omega)]
      · have hpart : lineFeed ∉ before ++ chunk := fun hmem ↦
          hline (htail ▸ List.mem_append_left _ hmem)
        have hlength := congrArg List.length htail
        rw [List.length_append] at hlength
        by_cases hsize : maxMessageSize < (before ++ chunk).length
        · rw [if_pos hsize, if_neg (by omega)]
        · rw [if_neg hsize, if_neg fun hmem ↦ hpart (List.mem_append_right _ hmem)]
          exact ih hdata hpart hne.2

/-! ## What was sent -/

/-- The bytes of a message without the line break. -/
def messageLine (payload : Json) : Bytes :=
  (payload.dump .compact 0).map fun c ↦ UInt8.ofNat c.toNat

theorem encodeMessage_eq (h : Json.Printable float payload) :
    encodeMessage payload = messageLine payload ++ [lineFeed] := by
  have hascii : ∀ c ∈ ['\n'], c.toNat < 128 := List.forall_mem_singleton.mpr (by decide)
  rw [encodeMessage, h.encode_dump hascii, List.map_append]
  rfl

theorem lineFeed_notMem (h : Json.Printable float payload) : lineFeed ∉ messageLine payload := by
  intro hmem
  obtain ⟨c, hc, hbyte⟩ := List.mem_map.mp hmem
  rcases h.written (l := .compact) 0 c hc with ⟨hlow, hhigh⟩ | ⟨hindent, -⟩
  · have hcode := congrArg UInt8.toNat hbyte
    rw [UInt8.toNat_ofNat'] at hcode
    have hten : lineFeed.toNat = 10 := rfl
    omega
  · cases hindent

theorem parseLine_messageLine (h : Json.Printable float payload) :
    parseLine float (messageLine payload) = .ok payload := by
  have hencode : encodeUtf8 (payload.dump .compact 0 ++ []) = _ :=
    h.encode_dump (fun _ hc ↦ by cases hc) 0
  have hread := @Json.loads_dump float payload h .compact [] fun _ hc ↦ by cases hc
  rw [List.append_nil] at hencode hread
  rw [parseLine, messageLine, ← hencode, decodeUtf8?_encodeUtf8]
  dsimp only
  rw [hread]

/-- A message arrives as it was sent, in whatever pieces, unless it is too long. -/
theorem readMessage_arrives {received : List (Except ZoneError Bytes)}
    (h : Json.Printable float payload) (harrives : Arrives (encodeMessage payload) received) :
    readMessage float received =
      if (encodeMessage payload).length ≤ maxMessageSize then .ok payload
      else .error (.python (.valueError "zone message exceeded maximum size")) := by
  obtain ⟨chunks, rfl, hflatten, hne⟩ := harrives.pieces
  rw [encodeMessage_eq h] at hflatten ⊢
  rw [readMessage, readFrom_chunks hflatten (lineFeed_notMem h) List.not_mem_nil hne,
    parseLine_messageLine h, List.length_append, List.length_singleton]
  exact if_congr Nat.lt_iff_add_one_le rfl rfl

end ZoneProtocol

end VehicleOta
