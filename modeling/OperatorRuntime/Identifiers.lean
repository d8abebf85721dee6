/-
Texts the stores name things by: keys of a restricted alphabet, and the
UUIDs they derive from a digest so that a retry finds the same name.
-/
import OperatorRuntime.Text
import Mathlib.Data.List.Basic

namespace OperatorRuntime

-- ===== keys

/-- `/^[A-Za-z0-9][A-Za-z0-9._:/@-]{0,max-1}$/`. -/
def isKeyText (max : Nat) (text : String) : Bool :=
  match text.toList with
  | [] => false
  | c :: cs =>
    isAlnum c && cs.length < max && cs.all fun c =>
      isAlnum c || c == '.' || c == '_' || c == ':' || c == '/' || c == '@' || c == '-'

-- ===== UUIDs

/-- The UUID a text is, whatever its case. -/
def uuid? (input : String) : Option Uuid :=
  let value := input.map Char.toLower
  if h : matchesClasses uuidClasses value.toList = true then some ⟨value, h⟩ else none

-- ===== lower case

theorem matchesClasses_map_toLower {classes : List (Char → Bool)} {cs : List Char}
    (hlower : ∀ p ∈ classes, ∀ c, p c = true → c.toLower = c)
    (h : matchesClasses classes cs = true) : cs.map Char.toLower = cs := by
  induction classes generalizing cs with
  | nil =>
    cases cs with
    | nil => rfl
    | cons c cs => cases h
  | cons p classes ih =>
    cases cs with
    | nil => cases h
    | cons c cs =>
      rw [matchesClasses, Bool.and_eq_true] at h
      rw [List.map_cons, hlower p (List.mem_cons_self ..) c h.1,
        ih (fun q hq => hlower q (List.mem_cons_of_mem _ hq)) h.2]

theorem isHex_of_version {c : Char} (h : ('1' ≤ c && c ≤ '8') = true) : isHex c = true := by
  rw [Bool.and_eq_true, decide_eq_true_eq, decide_eq_true_eq] at h
  have hlow : '0'.val ≤ c.val := UInt32.le_trans (by decide) h.1
  have hhigh : c.val ≤ '9'.val := UInt32.le_trans h.2 (by decide)
  unfold isHex Char.isDigit
  simp only [Bool.or_eq_true, Bool.and_eq_true, decide_eq_true_eq]
  exact .inl ⟨hlow, hhigh⟩

theorem lower_of_uuidClasses : ∀ p ∈ uuidClasses, ∀ c, p c = true → c.toLower = c := by
  have hdash : ∀ c, isDash c = true → c.toLower = c := by
    intro c hc
    rw [beq_iff_eq.1 hc]
    decide
  intro p hp c hc
  simp only [uuidClasses, List.mem_append, List.mem_replicate, List.mem_singleton] at hp
  rcases hp with (((((((((⟨-, rfl⟩ | rfl) | ⟨-, rfl⟩) | rfl) | rfl) | ⟨-, rfl⟩) | rfl) | rfl) |
    ⟨-, rfl⟩) | rfl) | ⟨-, rfl⟩
  · exact toLower_of_isHex hc
  · exact hdash c hc
  · exact toLower_of_isHex hc
  · exact hdash c hc
  · exact toLower_of_isHex (isHex_of_version hc)
  · exact toLower_of_isHex hc
  · exact hdash c hc
  · simp only [Bool.or_eq_true, beq_iff_eq] at hc
    rcases hc with ((rfl | rfl) | rfl) | rfl <;> decide
  · exact toLower_of_isHex hc
  · exact hdash c hc
  · exact toLower_of_isHex hc

theorem uuid_toLower (id : Uuid) : id.val.toList.map Char.toLower = id.val.toList :=
  matchesClasses_map_toLower lower_of_uuidClasses id.property

-- ===== derived ids

/-- The value of a lower-case hexadecimal digit. -/
def hexValue (c : Char) : Nat :=
  if c.isDigit then c.toNat - 48 else c.toNat - 87

/-- The first digit of `(byte & 0x3f) | 0x80`, of the first digit of a byte. -/
def variantDigit (c : Char) : Char :=
  match hexValue c % 4 with
  | 0 => '8'
  | 1 => '9'
  | 2 => 'a'
  | _ => 'b'

/-- The first 16 bytes of a digest, version and variant bits set, as the
stores write them. -/
def uuidChars (hex : List Char) : List Char :=
  hex.take 8 ++ ['-'] ++ (hex.drop 8).take 4 ++ ['-'] ++ ['5'] ++ (hex.drop 13).take 3 ++ ['-']
    ++ [variantDigit (hex.getD 16 '0')] ++ (hex.drop 17).take 3 ++ ['-'] ++ (hex.drop 20).take 12

theorem matchesClasses_append {ps qs : List (Char → Bool)} {cs ds : List Char}
    (h : matchesClasses ps cs = true) (h' : matchesClasses qs ds = true) :
    matchesClasses (ps ++ qs) (cs ++ ds) = true := by
  induction ps generalizing cs with
  | nil =>
    cases cs with
    | nil => exact h'
    | cons c cs => cases h
  | cons p ps ih =>
    cases cs with
    | nil => cases h
    | cons c cs =>
      rw [matchesClasses, Bool.and_eq_true] at h
      rw [List.cons_append, List.cons_append, matchesClasses, h.1, ih h.2]
      rfl

theorem matchesClasses_stretch {n : Nat} {cs : List Char}
    (h : matchesClasses (List.replicate n isHex) cs = true) (start count : Nat)
    (hle : start + count ≤ n) :
    matchesClasses (List.replicate count isHex) ((cs.drop start).take count) = true := by
  induction n generalizing cs start count with
  | zero =>
    obtain rfl : count = 0 := by omega
    rfl
  | succ n ih =>
    cases cs with
    | nil => cases h
    | cons c cs =>
      rw [List.replicate_succ, matchesClasses, Bool.and_eq_true] at h
      cases start with
      | succ start => exact ih h.2 start count (by omega)
      | zero =>
        cases count with
        | zero => rfl
        | succ count =>
          have hrest := ih h.2 0 count (by omega)
          rw [List.replicate_succ, List.drop_zero, List.take_succ_cons, matchesClasses, h.1]
          exact hrest

theorem variantDigit_class (c : Char) :
    matchesClasses [fun c => c == '8' || c == '9' || c == 'a' || c == 'b'] [variantDigit c]
    = true := by
  unfold variantDigit
  split <;> rfl

def uuidOfDigest (digest : Hex64) : Uuid :=
  ⟨String.ofList (uuidChars digest.val.toList), by
    rw [String.toList_ofList, uuidClasses, uuidChars]
    have hstretch := matchesClasses_stretch digest.2
    refine matchesClasses_append (matchesClasses_append (matchesClasses_append
      (matchesClasses_append (matchesClasses_append (matchesClasses_append (matchesClasses_append
        (matchesClasses_append (matchesClasses_append (matchesClasses_append ?_ ?_) ?_) ?_) ?_)
          ?_) ?_) ?_) ?_) ?_) ?_
    · exact hstretch 0 8 (by decide)
    · rfl
    · exact hstretch 8 4 (by decide)
    · rfl
    · rfl
    · exact hstretch 13 3 (by decide)
    · rfl
    · exact variantDigit_class _
    · exact hstretch 17 3 (by decide)
    · rfl
    · exact hstretch 20 12 (by decide)⟩

end OperatorRuntime
