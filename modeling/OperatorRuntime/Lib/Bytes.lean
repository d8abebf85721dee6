/-
UTF-8 as a decoder reads it that never fails: bytes that begin no character, or
are cut off, are read as a replacement character. What a text is encoded to is
read back (`decode_encode`).
-/
import Mathlib.Algebra.BigOperators.Group.List.Basic
import Mathlib.Data.List.Basic
import Mathlib.Tactic.Ring
import OperatorRuntime.Lib.Sha256

namespace OperatorRuntime.Lib.Utf8

-- ===== encoding

def encodeChar (c : Char) : List UInt8 :=
  (Sha256.utf8 c).map UInt8.ofNat

def encode (text : List Char) : List UInt8 :=
  text.flatMap encodeChar

-- ===== decoding

def replacement : Char := '\ufffd'

/-- A character whose first bytes were read: its bits so far, how many more bytes
it takes, and the range of the next one. -/
structure Pending where
  bits : ℕ
  wanted : ℕ
  lower : ℕ
  upper : ℕ

def firstByte (b : ℕ) : List Char × Option Pending :=
  if b < 0x80 then ([Char.ofNat b], none)
  else if 0xc2 ≤ b ∧ b ≤ 0xdf then ([], some ⟨b - 0xc0, 1, 0x80, 0xbf⟩)
  else if 0xe0 ≤ b ∧ b ≤ 0xef then
    ([], some ⟨b - 0xe0, 2, if b = 0xe0 then 0xa0 else 0x80, if b = 0xed then 0x9f else 0xbf⟩)
  else if 0xf0 ≤ b ∧ b ≤ 0xf4 then
    ([], some ⟨b - 0xf0, 3, if b = 0xf0 then 0x90 else 0x80, if b = 0xf4 then 0x8f else 0xbf⟩)
  else ([replacement], none)

/-- One byte; a character that it does not continue is given up, and the byte
begins another. -/
def decodeByte : Option Pending → ℕ → List Char × Option Pending
  | none, b => firstByte b
  | some p, b =>
    if p.lower ≤ b ∧ b ≤ p.upper then
      if p.wanted = 1 then ([Char.ofNat (p.bits * 64 + (b - 0x80))], none)
      else ([], some ⟨p.bits * 64 + (b - 0x80), p.wanted - 1, 0x80, 0xbf⟩)
    else (replacement :: (firstByte b).1, (firstByte b).2)

def decodeFrom : Option Pending → List UInt8 → List Char
  | none, [] => []
  | some _, [] => [replacement]
  | pending, b :: bytes =>
    (decodeByte pending b.toNat).1 ++ decodeFrom (decodeByte pending b.toNat).2 bytes

def decode (bytes : List UInt8) : List Char :=
  decodeFrom none bytes

-- ===== round trip

theorem decodeFrom_cons {pending next : Option Pending} {n : ℕ} {chars : List Char}
    (hn : n < 256) (h : decodeByte pending n = (chars, next)) (rest : List UInt8) :
    decodeFrom pending (UInt8.ofNat n :: rest) = chars ++ decodeFrom next rest := by
  have hbyte : (UInt8.ofNat n).toNat = n := UInt8.toNat_ofNat_of_lt hn
  cases pending with
  | none => rw [decodeFrom, hbyte, h]
  | some p => rw [decodeFrom, hbyte, h]

section
variable {bits wanted lower upper k : ℕ} {c : Char} {rest : List UInt8}

theorem decodeByte_more (hlower : lower ≤ 0x80 + k) (hupper : 0x80 + k ≤ upper) :
    decodeByte (some ⟨bits, wanted + 2, lower, upper⟩) (0x80 + k)
    = ([], some ⟨bits * 64 + k, wanted + 1, 0x80, 0xbf⟩) := by
  rw [decodeByte, if_pos ⟨hlower, hupper⟩, if_neg (by simp), Nat.add_sub_cancel_left]
  rfl

theorem decodeByte_last (c : Char) (hlower : lower ≤ 0x80 + k) (hupper : 0x80 + k ≤ upper)
    (hbits : bits * 64 + k = c.toNat) :
    decodeByte (some ⟨bits, 1, lower, upper⟩) (0x80 + k) = ([c], none) := by
  rw [decodeByte, if_pos ⟨hlower, hupper⟩, if_pos rfl, Nat.add_sub_cancel_left, hbits,
    Char.ofNat_toNat]

theorem firstByte_two (h1 : ¬ c.toNat < 0x80) (h2 : c.toNat < 0x800) :
    decodeByte none (0xc0 + c.toNat / 64) = ([], some ⟨c.toNat / 64, 1, 0x80, 0xbf⟩) := by
  rw [decodeByte, firstByte, if_neg (by omega), if_pos (by omega), Nat.add_sub_cancel_left]

theorem firstByte_three (h2 : ¬ c.toNat < 0x800) (h3 : c.toNat < 0x10000) :
    ∃ lower upper, decodeByte none (0xe0 + c.toNat / 4096)
      = ([], some ⟨c.toNat / 4096, 2, lower, upper⟩)
    ∧ lower ≤ 0x80 + c.toNat / 64 % 64 ∧ 0x80 + c.toNat / 64 % 64 ≤ upper := by
  have hvalid : c.toNat < 0xd800 ∨ 0xdfff < c.toNat ∧ c.toNat < 0x110000 := c.valid
  refine ⟨if 0xe0 + c.toNat / 4096 = 0xe0 then 0xa0 else 0x80,
    if 0xe0 + c.toNat / 4096 = 0xed then 0x9f else 0xbf, ?_, ?_, ?_⟩
  · rw [decodeByte, firstByte, if_neg (by omega), if_neg (by omega), if_pos (by omega),
      Nat.add_sub_cancel_left]
  · split
    · omega
    · omega
  · split
    · omega
    · omega

theorem firstByte_four (h3 : ¬ c.toNat < 0x10000) :
    ∃ lower upper, decodeByte none (0xf0 + c.toNat / 262144)
      = ([], some ⟨c.toNat / 262144, 3, lower, upper⟩)
    ∧ lower ≤ 0x80 + c.toNat / 4096 % 64 ∧ 0x80 + c.toNat / 4096 % 64 ≤ upper := by
  have hvalid : c.toNat < 0xd800 ∨ 0xdfff < c.toNat ∧ c.toNat < 0x110000 := c.valid
  refine ⟨if 0xf0 + c.toNat / 262144 = 0xf0 then 0x90 else 0x80,
    if 0xf0 + c.toNat / 262144 = 0xf4 then 0x8f else 0xbf, ?_, ?_, ?_⟩
  · rw [decodeByte, firstByte, if_neg (by omega), if_neg (by omega), if_neg (by omega),
      if_pos (by omega), Nat.add_sub_cancel_left]
  · split
    · omega
    · omega
  · split
    · omega
    · omega

end

theorem decodeFrom_encodeChar (c : Char) (rest : List UInt8) :
    decodeFrom none (encodeChar c ++ rest) = c :: decodeFrom none rest := by
  have hvalid : c.toNat < 0xd800 ∨ 0xdfff < c.toNat ∧ c.toNat < 0x110000 := c.valid
  rw [encodeChar, Sha256.utf8]
  by_cases h1 : c.toNat < 0x80
  · have hfirst : decodeByte none c.toNat = ([c], none) := by
      rw [decodeByte, firstByte, if_pos h1, Char.ofNat_toNat]
    simp only [if_pos h1, List.map_cons, List.map_nil, List.cons_append, List.nil_append]
    rw [decodeFrom_cons (by omega) hfirst]
    rfl
  · by_cases h2 : c.toNat < 0x800
    · simp only [if_neg h1, if_pos h2, List.map_cons, List.map_nil, List.cons_append,
        List.nil_append]
      rw [decodeFrom_cons (by omega) (firstByte_two h1 h2),
        decodeFrom_cons (by omega) (decodeByte_last c (by omega) (by omega) (by omega))]
      rfl
    · by_cases h3 : c.toNat < 0x10000
      · obtain ⟨lower, upper, hfirst, hlower, hupper⟩ := firstByte_three h2 h3
        simp only [if_neg h1, if_neg h2, if_pos h3, List.map_cons, List.map_nil, List.cons_append,
          List.nil_append]
        rw [decodeFrom_cons (by omega) hfirst,
          decodeFrom_cons (by omega) (decodeByte_more hlower hupper),
          decodeFrom_cons (by omega) (decodeByte_last c (by omega) (by omega) (by omega))]
        rfl
      · obtain ⟨lower, upper, hfirst, hlower, hupper⟩ := firstByte_four h3
        simp only [if_neg h1, if_neg h2, if_neg h3, List.map_cons, List.map_nil, List.cons_append,
          List.nil_append]
        rw [decodeFrom_cons (by omega) hfirst,
          decodeFrom_cons (by omega) (decodeByte_more hlower hupper),
          decodeFrom_cons (by omega) (decodeByte_more (by omega) (by omega)),
          decodeFrom_cons (by omega) (decodeByte_last c (by omega) (by omega) (by omega))]
        rfl

theorem decode_encode (text : List Char) : decode (encode text) = text := by
  induction text with
  | nil => rfl
  | cons c text ih =>
    rw [decode, encode, List.flatMap_cons, decodeFrom_encodeChar]
    exact congrArg (c :: ·) ih

end OperatorRuntime.Lib.Utf8

/-
Numbers in byte buffers, least byte first. A record is a list of fields, each a
width and a number; a field is read back at its offset (`readLE_field`).
-/
namespace OperatorRuntime.Lib

-- ===== numbers

def leValue : List UInt8 → ℕ
  | [] => 0
  | b :: bytes => b.toNat + 256 * leValue bytes

/-- The low bytes of a number. -/
def leBytes : ℕ → ℕ → List UInt8
  | 0, _ => []
  | width + 1, n => UInt8.ofNat n :: leBytes width (n / 256)

@[simp] theorem length_leBytes (width n : ℕ) : (leBytes width n).length = width := by
  induction width generalizing n with
  | zero => rfl
  | succ width ih => rw [leBytes, List.length_cons, ih]

theorem leValue_leBytes (width n : ℕ) : leValue (leBytes width n) = n % 256 ^ width := by
  induction width generalizing n with
  | zero => rw [pow_zero, Nat.mod_one]; rfl
  | succ width ih =>
    have hbyte : (UInt8.ofNat n).toNat = n % 256 := UInt8.toNat_ofNat'
    rw [leBytes, leValue, ih, hbyte, pow_succ', Nat.mod_mul]

/-- The number at a position, if it lies in the buffer. -/
def readLE (width : ℕ) (bytes : List UInt8) (position : ℕ) : Option ℕ :=
  if position + width ≤ bytes.length then some (leValue ((bytes.drop position).take width)) else none

theorem readLE_isSome {width position : ℕ} {bytes : List UInt8}
    (h : position + width ≤ bytes.length) : ∃ n, readLE width bytes position = some n :=
  ⟨_, if_pos h⟩

theorem readLE_of_drop {width n position : ℕ} {bytes rest : List UInt8} (hwidth : 0 < width)
    (h : bytes.drop position = leBytes width n ++ rest) :
    readLE width bytes position = some (n % 256 ^ width) := by
  have hlength := congrArg List.length h
  rw [List.length_drop, List.length_append, length_leBytes] at hlength
  rw [readLE, if_pos (by omega), h, List.take_left' (length_leBytes width n), leValue_leBytes]

-- ===== records

def fieldBytes (fields : List (ℕ × ℕ)) : List UInt8 :=
  fields.flatMap fun f => leBytes f.1 f.2

/-- Where a field of a record starts. -/
def fieldOffset (fields : List (ℕ × ℕ)) (i : ℕ) : ℕ :=
  ((fields.take i).map Prod.fst).sum

theorem length_fieldBytes (fields : List (ℕ × ℕ)) :
    (fieldBytes fields).length = (fields.map Prod.fst).sum := by
  induction fields with
  | nil => rfl
  | cons f fields ih =>
    rw [fieldBytes, List.flatMap_cons, List.length_append, length_leBytes, List.map_cons,
      List.sum_cons, ← ih, fieldBytes]

variable {bytes rest : List UInt8} {fields : List (ℕ × ℕ)} {position i width n : ℕ}

theorem drop_of_drop {before : List UInt8} (h : bytes.drop position = before ++ rest) :
    bytes.drop (position + before.length) = rest := by
  rw [← List.drop_drop, h, List.drop_left]

theorem readLE_field (hwidth : 0 < width) (h : bytes.drop position = fieldBytes fields ++ rest)
    (hfield : fields[i]? = some (width, n)) :
    readLE width bytes (position + fieldOffset fields i) = some (n % 256 ^ width) := by
  obtain ⟨hi, hget⟩ := List.getElem?_eq_some_iff.1 hfield
  have hsplit : fields = fields.take i ++ (width, n) :: fields.drop (i + 1) := by
    rw [← hget, List.getElem_cons_drop, List.take_append_drop]
  have hbytes : fieldBytes fields
      = fieldBytes (fields.take i) ++ (leBytes width n ++ fieldBytes (fields.drop (i + 1))) := by
    conv_lhs => rw [hsplit]
    rw [fieldBytes, List.flatMap_append, List.flatMap_cons]
    rfl
  have hdrop := drop_of_drop (by rwa [hbytes, List.append_assoc] at h)
  rw [length_fieldBytes, List.append_assoc] at hdrop
  exact readLE_of_drop hwidth hdrop

end OperatorRuntime.Lib
