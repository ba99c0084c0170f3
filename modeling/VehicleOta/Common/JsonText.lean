import VehicleOta.Common.Json
import VehicleOta.Python.Utf8

/-!
# JSON texts

`json.dumps` for the separators and indentations that occur, and `json.loads`.  The constructor of
floats is a parameter of the reader.  A lone surrogate, which no text of Lean has, is refused.
-/

namespace VehicleOta.Json

/-! ## Writing -/

/-- The blanks behind the commas and colons, and those of one level of indentation. -/
structure Layout where
  itemBlanks : ℕ := 1
  keyBlanks : ℕ := 1
  indent : Option ℕ := none

namespace Layout

/-- `separators=(",", ":")` -/
def compact : Layout := ⟨0, 0, none⟩

/-- `indent=n` -/
def indented (n : ℕ) : Layout := ⟨0, 1, some n⟩

variable (l : Layout)

def newline (level : ℕ) : List Char :=
  match l.indent with
  | none => []
  | some n => '\n' :: List.replicate (n * level) ' '

def comma (level : ℕ) : List Char :=
  ',' :: (List.replicate l.itemBlanks ' ' ++ l.newline level)

def colon : List Char := ':' :: List.replicate l.keyBlanks ' '

end Layout

mutual

/-- `json.dumps(x)` in this layout, at this level of indentation. -/
def dump (l : Layout) (level : ℕ) : Json → List Char
  | null => "null".toList
  | bool b => (if b then "true" else "false").toList
  | int n => (toString n).toList
  | float _ text => text.toList
  | infinity negative => (if negative then "-Infinity" else "Infinity").toList
  | nan => "NaN".toList
  | str s => quote s
  | list [] => "[]".toList
  | list (x :: xs) =>
      '[' :: (l.newline (level + 1) ++ (dump l (level + 1) x ++ dumpItems l (level + 1) xs) ++
        (l.newline level ++ [']']))
  | dict [] => "\x7b\x7d".toList
  | dict ((key, x) :: es) =>
      '{' :: (l.newline (level + 1) ++
        (quote key ++ (l.colon ++ (dump l (level + 1) x ++ dumpEntries l (level + 1) es))) ++
        (l.newline level ++ ['}']))

/-- The items behind the first one. -/
def dumpItems (l : Layout) (level : ℕ) : List Json → List Char
  | [] => []
  | x :: xs => l.comma level ++ (dump l level x ++ dumpItems l level xs)

def dumpEntries (l : Layout) (level : ℕ) : List (String × Json) → List Char
  | [] => []
  | (key, x) :: es =>
      l.comma level ++ (quote key ++ (l.colon ++ (dump l level x ++ dumpEntries l level es)))

end

/-! ## Reading -/

/-- `JSONDecodeError`, and the refusal of an integer that is too long. -/
inductive ReadError where
  | decodeError
  | valueError (error : PyError)
  deriving DecidableEq

def isBlank (c : Char) : Bool := c = ' ' || c = '\t' || c = '\n' || c = '\r'

def skipBlanks (text : List Char) : List Char := text.dropWhile isBlank

/-- Four hexadecimal digits. -/
def scanUnit : List Char → Option (ℕ × List Char)
  | a :: b :: c :: d :: rest => do
      let a ← hexDigitValue? a
      let b ← hexDigitValue? b
      let c ← hexDigitValue? c
      let d ← hexDigitValue? d
      return (4096 * a + 256 * b + 16 * c + d, rest)
  | _ => none

/-- The second half of a surrogate pair. -/
def scanLow (high : ℕ) : List Char → Option (Char × List Char)
  | '\\' :: 'u' :: text => do
      let (low, rest) ← scanUnit text
      if 0xdc00 ≤ low ∧ low < 0xe000 then
        return (Char.ofNat (0x10000 + 1024 * (high - 0xd800) + (low - 0xdc00)), rest)
      else none
  | _ => none

def escapes : List (Char × Char) :=
  [('"', '"'), ('\\', '\\'), ('/', '/'), ('b', Char.ofNat 8), ('f', Char.ofNat 12), ('n', '\n'),
    ('r', '\r'), ('t', '\t')]

/-- What follows a backslash. -/
def scanEscape : List Char → Option (Char × List Char)
  | [] => none
  | c :: text =>
      if c = 'u' then do
        let (unit, rest) ← scanUnit text
        if 0xd800 ≤ unit ∧ unit < 0xdc00 then scanLow unit rest
        else if 0xdc00 ≤ unit ∧ unit < 0xe000 then none
        else return (Char.ofNat unit, rest)
      else (escapes.lookup c).map fun e ↦ (e, text)

/-- The characters as far as the closing quote; a round takes at least one of them. -/
def scanChars : ℕ → List Char → Option (List Char × List Char)
  | 0, _ => none
  | _, [] => none
  | fuel + 1, c :: text =>
      if c = '"' then some ([], text)
      else if c = '\\' then do
        let (e, rest) ← scanEscape text
        let (cs, rest) ← scanChars fuel rest
        return (e :: cs, rest)
      else if c.toNat < 0x20 then none
      else do
        let (cs, rest) ← scanChars fuel text
        return (c :: cs, rest)

/-- A text behind its opening quote. -/
def scanString (text : List Char) : Except ReadError (String × List Char) :=
  match scanChars (text.length + 1) text with
  | none => .error .decodeError
  | some (cs, rest) => .ok (String.ofList cs, rest)

/-- The longest run of digits. -/
def scanDigits (text : List Char) : List Char × List Char := text.span Char.isDigit

/-- A point with digits behind it, or nothing. -/
def scanFraction (text : List Char) : List Char × List Char :=
  match text with
  | '.' :: after =>
      match scanDigits after with
      | ([], _) => ([], text)
      | (digits, rest) => ('.' :: digits, rest)
  | _ => ([], text)

/-- The sign in front of a number, or nothing. -/
def scanSign (signs : List Char) (text : List Char) : List Char × List Char :=
  match text with
  | c :: rest => if c ∈ signs then ([c], rest) else ([], text)
  | [] => ([], [])

/-- An exponent with digits, or nothing. -/
def scanExponent (text : List Char) : List Char × List Char :=
  match text with
  | c :: after =>
      if c = 'e' ∨ c = 'E' then
        let (sign, after) := scanSign ['+', '-'] after
        match scanDigits after with
        | ([], _) => ([], text)
        | (digits, rest) => (c :: (sign ++ digits), rest)
      else ([], text)
  | [] => ([], [])

/-- `int(sign + digits)` -/
def scanInteger (sign digits rest : List Char) : Except ReadError (Json × List Char) :=
  match intOfDigits digits with
  | .error e => .error (.valueError e)
  | .ok n => .ok (int (if sign = [] then n else -n), rest)

section Reader

-- `float(text)`
variable (float : List Char → Json)

def scanNumber (text : List Char) : Except ReadError (Json × List Char) :=
  let (sign, unsigned) := scanSign ['-'] text
  let (digits, behind) := scanDigits unsigned
  -- a zero in front is a number of its own
  let (whole, rest) :=
    if digits.head? = some '0' then (['0'], digits.tail ++ behind) else (digits, behind)
  if whole = [] then .error .decodeError
  else
    let (fraction, rest) := scanFraction rest
    let (exponent, rest) := scanExponent rest
    if fraction = [] ∧ exponent = [] then scanInteger sign whole rest
    else .ok (float (sign ++ whole ++ fraction ++ exponent), rest)

def constants : List (String × Json) :=
  [("null", null), ("true", bool true), ("false", bool false), ("NaN", nan),
    ("Infinity", infinity false), ("-Infinity", infinity true)]

def scanConstant (text : List Char) : Option (Json × List Char) :=
  constants.findSome? fun constant ↦
    (text.dropPrefix? constant.1.toList).map fun rest ↦ (constant.2, rest)

/-- Whatever is no text, list or dictionary. -/
def scanAtom (text : List Char) : Except ReadError (Json × List Char) :=
  match scanConstant text with
  | some found => .ok found
  | none => scanNumber float text

mutual

/-- Every call behind the first one has taken a character, or is one for the first item. -/
def scanValue : ℕ → List Char → Except ReadError (Json × List Char)
  | 0, _ => .error .decodeError
  | fuel + 1, text =>
      match text with
      | '"' :: text => do
          let (s, rest) ← scanString text
          return (str s, rest)
      | '[' :: text =>
          match skipBlanks text with
          | ']' :: rest => .ok (list [], rest)
          | text => do
              let (xs, rest) ← scanItems fuel text
              return (list xs, rest)
      | '{' :: text =>
          match skipBlanks text with
          | '}' :: rest => .ok (dict [], rest)
          | text => do
              let (es, rest) ← scanEntries fuel text
              return (dict (Dict.ofPairs es).entries, rest)
      | text => scanAtom float text

def scanItems : ℕ → List Char → Except ReadError (List Json × List Char)
  | 0, _ => .error .decodeError
  | fuel + 1, text => do
      let (x, rest) ← scanValue fuel text
      match skipBlanks rest with
      | ']' :: rest => return ([x], rest)
      | ',' :: rest => do
          let (xs, rest) ← scanItems fuel (skipBlanks rest)
          return (x :: xs, rest)
      | _ => .error .decodeError

def scanEntries : ℕ → List Char → Except ReadError (List (String × Json) × List Char)
  | 0, _ => .error .decodeError
  | fuel + 1, text =>
      match text with
      | '"' :: text => do
          let (key, rest) ← scanString text
          match skipBlanks rest with
          | ':' :: rest => do
              let (x, rest) ← scanValue fuel (skipBlanks rest)
              match skipBlanks rest with
              | '}' :: rest => return ([(key, x)], rest)
              | ',' :: rest => do
                  let (es, rest) ← scanEntries fuel (skipBlanks rest)
                  return ((key, x) :: es, rest)
              | _ => .error .decodeError
          | _ => .error .decodeError
      | _ => .error .decodeError

end

/-- `json.loads(text)` -/
def loads (text : List Char) : Except ReadError Json := do
  let (x, rest) ← scanValue float (2 * text.length + 1) (skipBlanks text)
  if skipBlanks rest = [] then return x else .error .decodeError

end Reader

example : (loads (fun _ ↦ nan) "\x7b\"a\": [1, \"\\u00e4\"], \"a\": -0 \x7d".toList).toOption.map
    (fun x ↦ String.ofList (dumps x)) = some "\x7b\"a\":0\x7d" := by
  decide +kernel

end VehicleOta.Json
