import VehicleOta.Common.VersionText
import VehicleOta.Python.Hex

/-!
# JSON values

The values that `json.load` returns, the operations of Python on them that raise where a value
has another type, and `json.dumps` with sorted keys and without blanks.
-/

namespace VehicleOta

/-- A finite float is its value with the text that `repr` gives it. -/
inductive Json where
  | null
  | bool (b : Bool)
  | int (n : ℤ)
  | float (value : ℚ) (text : String)
  | infinity (negative : Bool)
  | nan
  | str (s : String)
  | list (items : List Json)
  | dict (entries : List (String × Json))

namespace Json

def typeName : Json → String
  | null => "NoneType"
  | bool _ => "bool"
  | int _ => "int"
  | float _ _ | infinity _ | nan => "float"
  | str _ => "str"
  | list _ => "list"
  | dict _ => "dict"

/-! ## Dictionaries -/

def lookup (entries : List (String × Json)) (key : String) : Option Json :=
  (entries.find? fun e ↦ e.1 = key).map Prod.snd

theorem lookup_setEntries (entries : List (String × Json)) (key other : String) (value : Json) :
    lookup (Dict.setEntries entries key value) other =
      if other = key then some value else lookup entries other := by
  unfold Dict.setEntries
  split
  · rename_i hmem
    induction entries with
    | nil => simp at hmem
    | cons e entries ih =>
        by_cases he : e.1 = key
        · by_cases hother : other = key
          · simp [lookup, he, hother]
          · have hne : ¬ key = other := fun h ↦ hother h.symm
            by_cases hrest : key ∈ entries.map Prod.fst
            · have h := ih hrest
              rw [if_neg hother] at h
              simpa [lookup, he, hother, hne] using h
            · have hmap : entries.map (fun e ↦ if e.1 = key then (key, value) else e) = entries := by
                rw [List.map_congr_left (g := id), List.map_id]
                intro e he
                rw [if_neg]
                · rfl
                · exact fun h ↦ hrest (h ▸ List.mem_map_of_mem he)
              simp [lookup, he, hother, hne, hmap]
        · have hrest : key ∈ entries.map Prod.fst := by
            rcases List.mem_cons.mp hmem with h | h
            · exact absurd h.symm he
            · exact h
          have h := ih hrest
          by_cases heo : e.1 = other
          · have hother : ¬ other = key := heo ▸ he
            simp [lookup, heo, hother]
          · simpa [lookup, he, heo] using h
  · rename_i hmem
    by_cases hother : other = key
    · have hnone : entries.find? (fun e ↦ e.1 = key) = none := by
        rw [List.find?_eq_none]
        intro e he h
        exact hmem (List.mem_map.mpr ⟨e, he, of_decide_eq_true h⟩)
      simp [lookup, hother, List.find?_append, hnone]
    · have hne : ¬ key = other := fun h ↦ hother h.symm
      simp [lookup, List.find?_append, hother, hne]

/-- `x.get(key, default)` -/
def getD (x : Json) (key : String) (default : Json) : Except PyError Json :=
  match x with
  | dict entries => .ok ((lookup entries key).getD default)
  | _ => .error (.attributeError ("'" ++ x.typeName ++ "' object has no attribute 'get'"))

/-- `x[key]` -/
def getItem (x : Json) (key : String) : Except PyError Json :=
  match x with
  | dict entries =>
      match lookup entries key with
      | some value => .ok value
      | none => .error (.keyError key)
  | list _ => .error (.typeError "list indices must be integers or slices, not str")
  | str _ => .error (.typeError "string indices must be integers, not 'str'")
  | _ => .error (.typeError ("'" ++ x.typeName ++ "' object is not subscriptable"))

/-- `x[key] = value` -/
def setItem (x : Json) (key : String) (value : Json) : Except PyError Json :=
  match x with
  | dict entries => .ok (dict (Dict.setEntries entries key value))
  | list _ => .error (.typeError "list indices must be integers or slices, not str")
  | _ => .error (.typeError ("'" ++ x.typeName ++ "' object does not support item assignment"))

/-- `bool(x)` -/
def truthy : Json → Bool
  | null => false
  | bool b => b
  | int n => n != 0
  | float value _ => value != 0
  | infinity _ | nan => true
  | str s => s != ""
  | list xs => !xs.isEmpty
  | dict entries => !entries.isEmpty

/-- `x.items()` -/
def items (x : Json) : Except PyError (List (String × Json)) :=
  match x with
  | dict entries => .ok entries
  | _ => .error (.attributeError ("'" ++ x.typeName ++ "' object has no attribute 'items'"))

/-- `x.keys()` -/
def keys (x : Json) : Except PyError (List String) :=
  match x with
  | dict entries => .ok (entries.map Prod.fst)
  | _ => .error (.attributeError ("'" ++ x.typeName ++ "' object has no attribute 'keys'"))

/-! ## Numbers -/

/-- `int(x)` -/
def toInt : Json → Except PyError ℤ
  | bool b => .ok (if b then 1 else 0)
  | int n => .ok n
  | float value _ => .ok (value.num.tdiv value.den)
  | infinity _ => .error (.overflowError "cannot convert float infinity to integer")
  | nan => .error (.valueError "cannot convert float NaN to integer")
  | str s => parseInt s
  | x => .error (.typeError ("int() argument must be a string, a bytes-like object or a real " ++
      "number, not '" ++ x.typeName ++ "'"))

/-- `n < x` -/
def intLt (n : ℤ) : Json → Except PyError Bool
  | bool b => .ok (decide (n < if b then 1 else 0))
  | int m => .ok (decide (n < m))
  | float value _ => .ok (decide ((n : ℚ) < value))
  | infinity negative => .ok (!negative)
  | nan => .ok false
  | x => .error (.typeError ("'<' not supported between instances of 'int' and '" ++ x.typeName ++
      "'"))

/-- The finite numbers by their value. -/
def rational? : Json → Option ℚ
  | bool b => some (if b then 1 else 0)
  | int n => some n
  | float value _ => some value
  | _ => none

/-! ## Equality and containers -/

mutual

/-- `x == y` -/
def eq : Json → Json → Bool
  | null, y => match y with
      | null => true
      | _ => false
  | infinity b, y => match y with
      | infinity c => b = c
      | _ => false
  | nan, _ => false
  | str s, y => match y with
      | str t => s = t
      | _ => false
  | list xs, y => match y with
      | list ys => eqItems xs ys
      | _ => false
  | dict es, y => match y with
      | dict fs => es.length = fs.length && eqEntries es fs
      | _ => false
  | bool b, y => rational? y = some (if b then 1 else 0)
  | int n, y => rational? y = some (n : ℚ)
  | float value _, y => rational? y = some value

def eqItems : List Json → List Json → Bool
  | [], ys => ys.isEmpty
  | x :: xs, ys => match ys with
      | [] => false
      | y :: ys => eq x y && eqItems xs ys

def eqEntries : List (String × Json) → List (String × Json) → Bool
  | [], _ => true
  | (key, x) :: es, fs => match lookup fs key with
      | none => false
      | some y => eq x y && eqEntries es fs

end

def hashable : Json → Bool
  | list _ | dict _ => false
  | _ => true

/-- `x in container` -/
def contains (container x : Json) : Except PyError Bool :=
  match container with
  | list ys => .ok (ys.any fun y ↦ eq x y)
  | dict entries =>
      if !x.hashable then .error (.typeError ("unhashable type: '" ++ x.typeName ++ "'"))
      else .ok (entries.any fun e ↦ eq x (str e.1))
  | str s =>
      match x with
      | str part => .ok (decide (part.toList <:+: s.toList))
      | _ => .error (.typeError
          ("'in <string>' requires string as left operand, not " ++ x.typeName))
  | _ => .error (.typeError ("argument of type '" ++ container.typeName ++ "' is not iterable"))

/-- `x.get(key)` for a key that need not be a text. -/
def getKey (x key : Json) : Except PyError Json :=
  match x with
  | dict entries =>
      if !key.hashable then .error (.typeError ("unhashable type: '" ++ key.typeName ++ "'"))
      else
        match key with
        | str s => .ok ((lookup entries s).getD null)
        | _ => .ok null
  | _ => .error (.attributeError ("'" ++ x.typeName ++ "' object has no attribute 'get'"))

/-- `len(x)` -/
def len : Json → Except PyError ℕ
  | str s => .ok s.length
  | list xs => .ok xs.length
  | dict entries => .ok entries.length
  | x => .error (.typeError ("object of type '" ++ x.typeName ++ "' has no len()"))

/-- The values of `for … in x`. -/
def iter : Json → Except PyError (List Json)
  | str s => .ok (s.toList.map fun c ↦ str (String.ofList [c]))
  | list xs => .ok xs
  | dict entries => .ok (entries.map fun e ↦ str e.1)
  | x => .error (.typeError ("'" ++ x.typeName ++ "' object is not iterable"))

/-! ## Texts -/

/-- `bytes.fromhex(x)` -/
def bytesFromHex : Json → Except PyError Bytes
  | str text => fromHex text.toList
  | x => .error (.typeError ("fromhex() argument must be str, not " ++ x.typeName))

theorem bytesFromHex_hexDigest (data : Bytes) : bytesFromHex (str (Hash.hexDigest data)) = .ok data :=
  fromHex_hexDigest data

def hex4 (n : ℕ) : List Char :=
  ['\\', 'u', Hash.hexDigit (n / 4096 % 16), Hash.hexDigit (n / 256 % 16),
    Hash.hexDigit (n / 16 % 16), Hash.hexDigit (n % 16)]

/-- A character of a text, in ASCII; a surrogate pair for the code points from 65536 on. -/
def escapeChar (c : Char) : List Char :=
  if c = '"' then ['\\', '"']
  else if c = '\\' then ['\\', '\\']
  else if c = '\n' then ['\\', 'n']
  else if c = '\r' then ['\\', 'r']
  else if c = '\t' then ['\\', 't']
  else if c.toNat = 8 then ['\\', 'b']
  else if c.toNat = 12 then ['\\', 'f']
  else if 0x20 ≤ c.toNat ∧ c.toNat ≤ 0x7e then [c]
  else if c.toNat < 0x10000 then hex4 c.toNat
  else
    let n := c.toNat - 0x10000
    hex4 (0xd800 + n / 1024) ++ hex4 (0xdc00 + n % 1024)

def quote (s : String) : List Char := '"' :: (s.toList.flatMap escapeChar ++ ['"'])

mutual

/-- `json.dumps(x, sort_keys=True, separators=(",", ":"))` -/
def dumps : Json → List Char
  | null => "null".toList
  | bool b => (if b then "true" else "false").toList
  | int n => (toString n).toList
  | float _ text => text.toList
  | infinity negative => (if negative then "-Infinity" else "Infinity").toList
  | nan => "NaN".toList
  | str s => quote s
  | list xs => '[' :: ((dumpsItems xs).intersperse [','] ).flatten ++ [']']
  | dict entries =>
      let sorted := (dumpsEntries entries).insertionSort fun e f ↦ e.1 ≤ f.1
      '{' :: ((sorted.map fun e ↦ quote e.1 ++ ':' :: e.2).intersperse [',']).flatten ++ ['}']

def dumpsItems : List Json → List (List Char)
  | [] => []
  | x :: xs => dumps x :: dumpsItems xs

def dumpsEntries : List (String × Json) → List (String × List Char)
  | [] => []
  | (key, x) :: es => (key, dumps x) :: dumpsEntries es

end

/-- `.encode("utf-8")` on the ASCII text. -/
def canonicalBytes (x : Json) : Bytes := x.dumps.map fun c ↦ UInt8.ofNat c.toNat

example : String.ofList (dumps (dict [("b", list [int 1, null]), ("a", str "\n")])) =
    "\x7b\"a\":\"\\n\",\"b\":[1,null]\x7d" := by
  decide +kernel

end Json

end VehicleOta
