/-
JSON values as the stores persist and hash them, with the encoders of
`core/action-identity.ts`.

A number is carried by its JavaScript rendering (`Number::toString` is
injective on the finite numbers `JSON.stringify` accepts), a string by
its Unicode scalar values, and an object by its own enumerable fields in
property order. Property order is JavaScript's: array-index keys first,
ascending, then the others in insertion order (`ownOrder`).
-/
import Mathlib.Data.List.Sort

namespace OperatorRuntime

/-- A value `JSON.parse` can return. -/
inductive Json
  | null
  | bool (b : Bool)
  | num (text : String)
  | str (s : String)
  | arr (items : List Json)
  | obj (fields : List (String × Json))

/-- `Record<string, unknown>` after a JSON round trip. -/
abbrev JsonObject := List (String × Json)

namespace Json

-- ==== string order, keys

/-- The UTF-16 code units of a scalar value. -/
def codeUnits (c : Char) : List Nat :=
  if c.toNat < 0x10000 then [c.toNat]
  else [0xd800 + (c.toNat - 0x10000) / 0x400, 0xdc00 + (c.toNat - 0x10000) % 0x400]

/-- The order of `Array.prototype.sort` without a comparator. -/
def unitsLe : List Nat → List Nat → Bool
  | [], _ => true
  | _ :: _, [] => false
  | a :: as, b :: bs => a < b || (a == b && unitsLe as bs)

def keyLe (a b : String) : Bool :=
  unitsLe (a.toList.flatMap codeUnits) (b.toList.flatMap codeUnits)

/-- `text.length`. -/
def unitLength (text : String) : Nat :=
  (text.toList.flatMap codeUnits).length

/-- `values.sort()`. -/
def sortTexts (values : List String) : List String :=
  values.insertionSort fun a b => keyLe a b = true

/-- The decimal value of an array-index key: no sign, no leading zero,
below `2^32 - 1`. -/
def arrayIndex? (key : String) : Option Nat :=
  match key.toList with
  | [] => none
  | c :: cs =>
    if (c :: cs).all Char.isDigit && (c != '0' || cs.isEmpty) then
      let n := (c :: cs).foldl (fun n d => 10 * n + (d.toNat - 48)) 0
      if n < 4294967295 then some n else none
    else none

/-- Own-property order of an object filled in the given order. -/
def ownOrder (fields : List (String × Json)) : List (String × Json) :=
  let indexed := fields.filter fun f => (arrayIndex? f.1).isSome
  indexed.insertionSort
      (fun a b => (arrayIndex? a.1).getD 0 ≤ (arrayIndex? b.1).getD 0)
    ++ fields.filter fun f => (arrayIndex? f.1).isNone

-- ===== JSON.stringify

/-- The `n`-th lower-case hexadecimal digit. -/
def hexDigit (n : Nat) : Char :=
  if n < 10 then Char.ofNat (48 + n) else Char.ofNat (87 + n)

def escapeChar (c : Char) : String :=
  if c == '"' then "\\\""
  else if c == '\\' then "\\\\"
  else if c.toNat == 8 then "\\b"
  else if c.toNat == 9 then "\\t"
  else if c.toNat == 10 then "\\n"
  else if c.toNat == 12 then "\\f"
  else if c.toNat == 13 then "\\r"
  else if c.toNat < 32 then
    String.ofList ['\\', 'u', '0', '0', hexDigit (c.toNat / 16), hexDigit (c.toNat % 16)]
  else String.singleton c

def quote (s : String) : String :=
  "\"" ++ String.join (s.toList.map escapeChar) ++ "\""

mutual

/-- `JSON.stringify(value)`, without indentation. -/
def stringify : Json → String
  | .null => "null"
  | .bool true => "true"
  | .bool false => "false"
  | .num text => text
  | .str s => quote s
  | .arr items => "[" ++ String.intercalate "," (stringifyItems items) ++ "]"
  | .obj fields =>
    "\x7b" ++ String.intercalate "," (stringifyFields fields) ++ "\x7d"

def stringifyItems : List Json → List String
  | [] => []
  | item :: items => stringify item :: stringifyItems items

def stringifyFields : List (String × Json) → List String
  | [] => []
  | (key, value) :: fields =>
    (quote key ++ ":" ++ stringify value) :: stringifyFields fields

end

-- ===== canonicalJson

mutual

/-- `canonicalize`: every object rebuilt with its keys inserted in
sorted order. -/
def canonicalize : Json → Json
  | .arr items => .arr (canonicalizeItems items)
  | .obj fields =>
    .obj (ownOrder ((canonicalizeFields fields).insertionSort fun a b => keyLe a.1 b.1))
  | value => value

def canonicalizeItems : List Json → List Json
  | [] => []
  | item :: items => canonicalize item :: canonicalizeItems items

def canonicalizeFields : List (String × Json) → List (String × Json)
  | [] => []
  | (key, value) :: fields =>
    (key, canonicalize value) :: canonicalizeFields fields

end

def canonicalJson (value : Json) : String :=
  (canonicalize value).stringify

/-- A named field of an object value, `undefined` otherwise. -/
def field? (value : Json) (key : String) : Option Json :=
  match value with
  | .obj fields => (fields.find? fun f => f.1 == key).map Prod.snd
  | _ => none

end Json

/-- An array of texts. -/
def texts (values : List String) : Json :=
  .arr (values.map .str)

end OperatorRuntime
