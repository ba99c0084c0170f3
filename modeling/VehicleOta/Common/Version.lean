import VehicleOta.Python.Hex

/-!
# Versions and transports

`common/utils.py`: `SemVer.parse`, the comparisons built on it, `normalize_version` and
`normalize_transport`.  The regular expression is read by its only greedy parse: no
alternative after a run of digits starts with a digit, so the matcher never backtracks
into one.
-/

namespace VehicleOta

/-! ## Characters -/

/-- The code points of the digits zero of the Unicode category `Nd`. -/
def decimalZeros : List ℕ :=
  [0x30, 0x660, 0x6f0, 0x7c0, 0x966, 0x9e6, 0xa66, 0xae6, 0xb66, 0xbe6, 0xc66, 0xce6, 0xd66,
   0xde6, 0xe50, 0xed0, 0xf20, 0x1040, 0x1090, 0x17e0, 0x1810, 0x1946, 0x19d0, 0x1a80, 0x1a90,
   0x1b50, 0x1bb0, 0x1c40, 0x1c50, 0xa620, 0xa8d0, 0xa900, 0xa9d0, 0xa9f0, 0xaa50, 0xabf0,
   0xff10, 0x104a0, 0x10d30, 0x11066, 0x110f0, 0x11136, 0x111d0, 0x112f0, 0x11450, 0x114d0,
   0x11650, 0x116c0, 0x11730, 0x118e0, 0x11950, 0x11c50, 0x11d50, 0x11da0, 0x16a60, 0x16ac0,
   0x16b50, 0x1d7ce, 0x1d7d8, 0x1d7e2, 0x1d7ec, 0x1d7f6, 0x1e140, 0x1e2f0, 0x1e950, 0x1fbf0]

def decimalValue? (c : Char) : Option ℕ :=
  (decimalZeros.find? fun z ↦ z ≤ c.toNat ∧ c.toNat < z + 10).map fun z ↦ c.toNat - z

/-- `\d` -/
def isDecimal (c : Char) : Bool := (decimalValue? c).isSome

/-- `str.isspace` on one character. -/
def isSpace (c : Char) : Bool :=
  let n := c.toNat
  (9 ≤ n ∧ n ≤ 13) ∨ (0x1c ≤ n ∧ n ≤ 0x20) ∨ n = 0x85 ∨ n = 0xa0 ∨ n = 0x1680 ∨
    (0x2000 ≤ n ∧ n ≤ 0x200a) ∨ n = 0x2028 ∨ n = 0x2029 ∨ n = 0x202f ∨ n = 0x205f ∨ n = 0x3000

/-- `text.strip()` -/
def strip (text : List Char) : List Char :=
  (((text.dropWhile isSpace).reverse).dropWhile isSpace).reverse

/-- `int(digits)`; the interpreter refuses more than 4300 digits. -/
def intOfDigits (digits : List Char) : Except PyError ℕ :=
  if 4300 < digits.length then
    .error (.valueError ("Exceeds the limit (4300 digits) for integer string conversion: value has " ++
      toString digits.length ++ " digits; use sys.set_int_max_str_digits() to increase the limit"))
  else .ok (digits.foldl (fun n c ↦ 10 * n + (decimalValue? c).getD 0) 0)

/-- A character of `repr(text)` between these quotes.  Every character outside of ASCII is taken as
printable. -/
def reprChar (quote c : Char) : List Char :=
  if c = quote ∨ c = '\\' then ['\\', c]
  else if c = '\t' then ['\\', 't']
  else if c = '\n' then ['\\', 'n']
  else if c = '\r' then ['\\', 'r']
  else if c.toNat < 0x20 ∨ c.toNat = 0x7f then
    ['\\', 'x', Hash.hexDigit (c.toNat / 16), Hash.hexDigit (c.toNat % 16)]
  else [c]

/-- `repr(text)` -/
def reprText (text : String) : String :=
  let quote := if Char.ofNat 39 ∈ text.toList ∧ '"' ∉ text.toList then '"' else Char.ofNat 39
  String.ofList (quote :: (text.toList.flatMap (reprChar quote) ++ [quote]))

/-! ## Semantic versions -/

structure SemVer where
  major : ℕ
  minor : ℕ
  patch : ℕ
  deriving DecidableEq, Repr

namespace SemVer

/-- An optional group `(?:\.(\d+))?` at the front of the text. -/
def dottedNumber (text : List Char) : List Char × List Char :=
  match text with
  | '.' :: rest =>
      if (rest.takeWhile isDecimal).isEmpty then ([], text)
      else (rest.takeWhile isDecimal, rest.dropWhile isDecimal)
  | _ => ([], text)

/-- `(?:[-+].*)?$` -/
def suffixAccepted : List Char → Bool
  | [] => true
  | c :: rest => (c = '-' ∨ c = '+') ∧ '\n' ∉ rest

def parse (value : String) : Except PyError SemVer := do
  let normalized := strip value.toList
  if normalized.isEmpty then
    throw (.valueError "Version value cannot be empty")
  let major := normalized.takeWhile isDecimal
  let (minor, rest) := dottedNumber (normalized.dropWhile isDecimal)
  let (patch, rest) := dottedNumber rest
  if major.isEmpty ∨ ¬ suffixAccepted rest then
    throw (.valueError ("Invalid version value: " ++ reprText value))
  return ⟨← intOfDigits major, ← intOfDigits minor, ← intOfDigits patch⟩

protected def toString (v : SemVer) : String :=
  s!"{v.major}.{v.minor}.{v.patch}"

/-- The order of the field tuples. -/
def lt (a b : SemVer) : Prop :=
  a.major < b.major ∨ a.major = b.major ∧
    (a.minor < b.minor ∨ a.minor = b.minor ∧ a.patch < b.patch)

instance (a b : SemVer) : Decidable (a.lt b) := by
  unfold lt
  infer_instance

def le (a b : SemVer) : Prop :=
  a.major < b.major ∨ a.major = b.major ∧
    (a.minor < b.minor ∨ a.minor = b.minor ∧ a.patch ≤ b.patch)

instance (a b : SemVer) : Decidable (a.le b) := by
  unfold le
  infer_instance

end SemVer

def parseVersion (value : String) : Except PyError SemVer := SemVer.parse value

def versionLt (left right : String) : Except PyError Bool := do
  return decide ((← parseVersion left).lt (← parseVersion right))

def versionLte (left right : String) : Except PyError Bool := do
  return decide ((← parseVersion left).le (← parseVersion right))

def versionEq (left right : String) : Except PyError Bool := do
  return decide ((← parseVersion left) = (← parseVersion right))

def versionGte (left right : String) : Except PyError Bool := do
  return !decide ((← parseVersion left).lt (← parseVersion right))

def normalizeVersion (value : String) : Except PyError String := do
  return (← parseVersion value).toString

section Parsed

variable {left right : String} {v w : SemVer}

theorem versionLt_of_parse (hleft : parseVersion left = .ok v)
    (hright : parseVersion right = .ok w) : versionLt left right = .ok (decide (v.lt w)) := by
  rw [versionLt, hleft, hright]
  rfl

theorem versionLte_of_parse (hleft : parseVersion left = .ok v)
    (hright : parseVersion right = .ok w) : versionLte left right = .ok (decide (v.le w)) := by
  rw [versionLte, hleft, hright]
  rfl

theorem versionEq_of_parse (hleft : parseVersion left = .ok v)
    (hright : parseVersion right = .ok w) : versionEq left right = .ok (decide (v = w)) := by
  rw [versionEq, hleft, hright]
  rfl

end Parsed

theorem SemVer.toString_ne_empty (v : SemVer) : v.toString ≠ "" := by
  intro h
  have hlen := congrArg String.length h
  simp [SemVer.toString] at hlen

/-- A normalised version is never the empty string that marks "no pending version". -/
theorem normalizeVersion_ne_empty {value normalized : String}
    (h : normalizeVersion value = .ok normalized) : normalized ≠ "" := by
  unfold normalizeVersion at h
  cases hv : parseVersion value with
  | error e => simp [hv, bind, Except.bind] at h
  | ok v =>
      have : v.toString = normalized := by
        simpa [hv, bind, Except.bind, pure, Except.pure] using h
      exact this ▸ v.toString_ne_empty

example : normalizeVersion " 2.1-rc1" = .ok "2.1.0" := by decide +kernel

/-! ## Transports -/

/-- Upper case on the ASCII letters, the only ones a transport name uses. -/
def normalizeTransport (value : String) : String :=
  String.ofList ((strip value.toList).map Char.toUpper)

end VehicleOta
