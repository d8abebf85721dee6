/-
Validated text and numbers. Each validator of the source returns the
normalised value or throws; here the normalised value has a type of its
own, whose second component is the very test the validator ran, so a
stored identifier cannot be malformed and re-reading it cannot change
it.

Patterns of fixed length are lists of character classes
(`matchesClasses`). The case-insensitive ones are matched against the
lower-cased text: on ASCII classes that is what the `i` flag does.
-/
import Mathlib.Algebra.GroupWithZero.Nat
import Mathlib.Data.List.Basic
import OperatorRuntime.Errors
import OperatorRuntime.Lib.Sha256

namespace OperatorRuntime

-- ===== character classes

/-- A fixed-length pattern: one class per character. -/
def matchesClasses : List (Char → Bool) → List Char → Bool
  | [], [] => true
  | p :: ps, c :: cs => p c && matchesClasses ps cs
  | _, _ => false

/-- `[0-9a-f]`. -/
def isHex (c : Char) : Bool :=
  c.isDigit || ('a' ≤ c && c ≤ 'f')

/-- `[A-Za-z0-9]`. -/
def isAlnum (c : Char) : Bool :=
  c.isAlphanum

def isDash (c : Char) : Bool :=
  c == '-'

/-- White space and line terminators: what `trim` takes off and `\s` matches. -/
def isBlank (c : Char) : Bool :=
  let n := c.toNat
  (9 ≤ n && n ≤ 13) || n == 32 || n == 0xa0 || n == 0x1680 || (0x2000 ≤ n && n ≤ 0x200a)
    || n == 0x2028 || n == 0x2029 || n == 0x202f || n == 0x205f || n == 0x3000 || n == 0xfeff

/-- `Buffer.byteLength(text, 'utf8')`. -/
def byteLength (text : List Char) : Nat :=
  (text.map Char.utf8Size).sum

-- ===== UUIDs

/-- `[0-9a-f]{8}-[0-9a-f]{4}-[1-8][0-9a-f]{3}-[89ab][0-9a-f]{3}-[0-9a-f]{12}`. -/
def uuidClasses : List (Char → Bool) :=
  List.replicate 8 isHex ++ [isDash] ++ List.replicate 4 isHex ++ [isDash]
    ++ [fun c => '1' ≤ c && c ≤ '8'] ++ List.replicate 3 isHex ++ [isDash]
    ++ [fun c => c == '8' || c == '9' || c == 'a' || c == 'b']
    ++ List.replicate 3 isHex ++ [isDash] ++ List.replicate 12 isHex

def Uuid := { text : String // matchesClasses uuidClasses text.toList = true }
deriving DecidableEq

/-- Device order: `localeCompare` of two UUIDs is the order of their
characters, dashes standing at the same places in both. -/
def Uuid.le (a b : Uuid) : Bool :=
  a.val ≤ b.val

-- ===== digests

/-- 64 lower-case hexadecimal digits. -/
def Hex64 :=
  { text : String //
    matchesClasses (List.replicate 64 isHex) text.toList = true }
deriving DecidableEq

/-- `/^[0-9a-f]{64}$/` on the lower-cased text. -/
def hex64? (value : String) : Option Hex64 :=
  if h : matchesClasses (List.replicate 64 isHex)
      (value.map Char.toLower).toList = true then
    some ⟨value.map Char.toLower, h⟩
  else none

theorem toLower_of_isHex {c : Char} (h : isHex c = true) : c.toLower = c := by
  delta Char.toLower
  rw [dif_neg]
  intro hupper
  rw [isHex, Char.isDigit] at h
  simp only [Bool.or_eq_true, Bool.and_eq_true, decide_eq_true_eq] at h
  rcases h with h | h
  · have h1 := UInt32.le_iff_toNat_le.1 h.2
    have h2 := UInt32.le_iff_toNat_le.1 hupper.1
    have h3 : '9'.val.toNat < 'A'.val.toNat := by decide
    omega
  · have h1 := UInt32.le_iff_toNat_le.1 h.1
    have h2 := UInt32.le_iff_toNat_le.1 hupper.2
    have h3 : 'Z'.val.toNat < 'a'.val.toNat := by decide
    omega

theorem map_toLower_of_hex {n : Nat} {cs : List Char}
    (h : matchesClasses (List.replicate n isHex) cs = true) :
    cs.map Char.toLower = cs := by
  induction n generalizing cs with
  | zero =>
    cases cs with
    | nil => rfl
    | cons c cs => cases h
  | succ n ih =>
    cases cs with
    | nil => rfl
    | cons c cs =>
      rw [List.replicate_succ, matchesClasses, Bool.and_eq_true] at h
      rw [List.map_cons, toLower_of_isHex h.1, ih h.2]

theorem hex64_val (d : Hex64) : hex64? d.val = some d := by
  have hlower : d.val.map Char.toLower = d.val := by
    apply String.toList_injective
    rw [String.toList_map, map_toLower_of_hex d.2]
  rw [hex64?, dif_pos (by rw [hlower]; exact d.2)]
  exact congrArg some (Subtype.ext hlower)

def hexChar (n : Fin 16) : Char :=
  if n.val < 10 then Char.ofNat (48 + n) else Char.ofNat (87 + n)

theorem matchesClasses_hex (digits : List (Fin 16)) :
    matchesClasses (List.replicate digits.length isHex)
      (digits.map hexChar) = true := by
  induction digits with
  | nil => rfl
  | cons n digits ih =>
    rw [List.length_cons, List.replicate_succ, List.map_cons, matchesClasses, ih, Bool.and_true]
    revert n
    decide

/-- `crypto.createHash('sha256').update(text, 'utf8').digest('hex')`. -/
def sha256Utf8 (text : String) : Hex64 :=
  ⟨String.ofList ((Lib.Sha256.digits text).map hexChar), by
    have hlength : (Lib.Sha256.digits text).length = 64 := by
      rw [Lib.Sha256.digits, List.length_map, List.length_range]
    rw [String.toList_ofList, ← hlength]
    exact matchesClasses_hex _⟩

-- ===== safe integers

def maxSafeInteger : Nat := 9007199254740991

/-- A JavaScript number as the validators see it: an integer, or a
value `Number.isInteger` rejects. -/
inductive Number
  | int (n : Int)
  | other
deriving DecidableEq, Repr

def Number.safeFrom? (low : Nat) : Number → Option Nat
  | .int n => if low ≤ n ∧ n ≤ maxSafeInteger then some n.toNat else none
  | .other => none

theorem Number.safeFrom?_eq_some {low m : Nat} {x : Number}
    (h : x.safeFrom? low = some m) : x = .int m := by
  cases x with
  | int n =>
    simp only [Number.safeFrom?] at h
    split at h
    · next hrange =>
      simp only [Option.some.injEq] at h
      rw [← h, Int.toNat_of_nonneg (by omega)]
    · cases h
  | other => cases h

/-- A safe integer that is at least one. -/
def PosSafe := { n : Nat // 1 ≤ n ∧ n ≤ maxSafeInteger }
deriving DecidableEq

def Number.posSafe? : Number → Option PosSafe
  | .int n =>
    if h : 1 ≤ n.toNat ∧ n.toNat ≤ maxSafeInteger then some ⟨n.toNat, h⟩
    else none
  | .other => none

-- ===== timestamps

/-- A time value of a valid `Date`: `toISOString` is defined on it and
`Date.parse` inverts it. -/
def Instant := { ms : Int // -8640000000000000 ≤ ms ∧ ms ≤ 8640000000000000 }
deriving DecidableEq

/-- What one call of the injected clock returns; `none` is an invalid
date. -/
abbrev ClockReading := Option Instant

/-- `clock().toISOString()`, kept as its time value. -/
def toISOString (reading : ClockReading) : Result Instant :=
  match reading with
  | some at' => .ok at'
  | none => fail .rangeError "Invalid time value"

/-- `new Date(at.getTime() + ms).toISOString()`. -/
def Instant.later (at' : Instant) (ms : Nat) : Result Instant :=
  if h : -8640000000000000 ≤ at'.val + ms ∧ at'.val + ms ≤ 8640000000000000 then
    .ok ⟨at'.val + ms, h⟩
  else fail .rangeError "Invalid time value"

-- ===== plain values

theorem zeros_uuid :
    matchesClasses uuidClasses "00000000-0000-4000-8000-000000000000".toList = true := by decide

theorem one_uuid :
    matchesClasses uuidClasses "00000000-0000-4000-8000-000000000001".toList = true := by decide

theorem ones_uuid :
    matchesClasses uuidClasses "11111111-1111-4111-8111-111111111111".toList = true := by decide

theorem twos_uuid :
    matchesClasses uuidClasses "22222222-2222-4222-8222-222222222222".toList = true := by decide

def onesUuid : Uuid := ⟨"11111111-1111-4111-8111-111111111111", ones_uuid⟩

def twosUuid : Uuid := ⟨"22222222-2222-4222-8222-222222222222", twos_uuid⟩

theorem threes_uuid :
    matchesClasses uuidClasses "33333333-3333-4333-8333-333333333333".toList = true := by decide

theorem zeros_hex64 :
    matchesClasses (List.replicate 64 isHex) (String.ofList (List.replicate 64 '0')).toList = true := by
  decide

theorem as_hex64 :
    matchesClasses (List.replicate 64 isHex) (String.ofList (List.replicate 64 'a')).toList = true := by
  decide

theorem zero_instant : -8640000000000000 ≤ (0 : Int) ∧ (0 : Int) ≤ 8640000000000000 := by decide

theorem second_instant :
    -8640000000000000 ≤ (1000 : Int) ∧ (1000 : Int) ≤ 8640000000000000 := by decide

theorem minute_instant :
    -8640000000000000 ≤ (60000 : Int) ∧ (60000 : Int) ≤ 8640000000000000 := by decide

end OperatorRuntime
