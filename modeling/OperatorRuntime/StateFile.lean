/-
State files: what becomes of an operation that reads one, changes the
state in memory and replaces the file, and the length in bytes of what it
writes as `JSON.stringify(value, null, 2)`. Of the text only the length
matters to a store: it refuses a file above its bound.
-/
import Mathlib.Algebra.Order.Ring.Nat
import OperatorRuntime.Json
import OperatorRuntime.Text

namespace OperatorRuntime

-- ===== replacing

/-- What becomes of a write: the file stays as it was, it is replaced
though the call throws, or it is replaced. -/
inductive Disk
  | lost
  | unconfirmed
  | durable
deriving DecidableEq

section
variable {σ α : Type}

/-- The file after an operation, and its answer: what it makes of the
state it read is written when `accept` passes it. `failed` is what a write
that does not go through throws. -/
def replaceState (accept : σ → Result Unit) (failed : OperatorError) (disk : Disk)
    (stored : σ) (outcome : Result (σ × α)) : σ × Result α :=
  match outcome with
  | .error e => (stored, .error e)
  | .ok (state, answer) =>
    match accept state, disk with
    | .error e, _ => (stored, .error e)
    | .ok (), .durable => (state, .ok answer)
    | .ok (), .unconfirmed => (state, .error failed)
    | .ok (), .lost => (stored, .error failed)

variable {accept : σ → Result Unit} {failed : OperatorError} {disk : Disk}
  {stored stored' state : σ} {outcome : Result (σ × α)}
  {answer : Result α} {value : α}

theorem replaceState_cases (h : replaceState accept failed disk stored outcome = (stored', answer)) :
    (stored' = stored ∧ ∃ e, answer = .error e)
    ∨ ∃ state value, outcome = .ok (state, value) ∧ accept state = .ok () ∧ stored' = state
      ∧ (answer = .ok value ∨ ∃ e, answer = .error e) := by
  cases outcome with
  | error e =>
    cases h
    exact .inl ⟨rfl, e, rfl⟩
  | ok pair =>
    obtain ⟨state, value⟩ := pair
    unfold replaceState at h
    dsimp only at h
    split at h
    · cases h
      exact .inl ⟨rfl, _, rfl⟩
    · next haccept =>
      cases h
      exact .inr ⟨_, _, rfl, haccept, rfl, .inl rfl⟩
    · next haccept =>
      cases h
      exact .inr ⟨_, _, rfl, haccept, rfl, .inr ⟨_, rfl⟩⟩
    · cases h
      exact .inl ⟨rfl, _, rfl⟩

/-- A write that throws after its rename leaves what it leaves when it
answers. -/
theorem replaceState_unconfirmed (accept : σ → Result Unit) (failed : OperatorError)
    (stored : σ) (outcome : Result (σ × α)) :
    ∃ e, replaceState accept failed .unconfirmed stored outcome
    = ((replaceState accept failed .durable stored outcome).1, .error e) := by
  unfold replaceState
  cases outcome with
  | error e => exact ⟨e, rfl⟩
  | ok pair =>
    dsimp only
    cases accept pair.1 with
    | error e => exact ⟨e, rfl⟩
    | ok _ => exact ⟨failed, rfl⟩

theorem replaceState_ok (h : accept state = .ok ()) :
    replaceState accept failed .durable stored (.ok (state, value)) = (state, .ok value) := by
  simp only [replaceState, h]

theorem replaceState_error {e : OperatorError} (h : accept state = .error e) :
    replaceState accept failed disk stored (.ok (state, value)) = (stored, .error e) := by
  simp only [replaceState, h]

end

-- ===== time texts

def padded (width n : Nat) : String :=
  let digits := Nat.toDigits 10 n
  String.ofList (List.replicate (width - digits.length) '0' ++ digits)

/-- The year, month and day of a day number, counted from 1970-01-01, in
the proleptic Gregorian calendar: years begin in March, so that the leap
day is the last of its year. -/
def civilDate (day : Int) : Int × Nat × Nat :=
  let z := day + 719468
  let era := z / 146097
  let doe := (z % 146097).toNat
  let yoe := (doe - doe / 1460 + doe / 36524 - doe / 146096) / 365
  let doy := doe - (365 * yoe + yoe / 4 - yoe / 100)
  let mp := (5 * doy + 2) / 153
  let month := if mp < 10 then mp + 3 else mp - 9
  (yoe + era * 400 + (if month ≤ 2 then 1 else 0), month, doy - (153 * mp + 2) / 5 + 1)

/-- The year as `toISOString` writes it: outside the years 0 to 9999 with
a sign and six digits. -/
def yearText (year : Int) : String :=
  if 0 ≤ year ∧ year ≤ 9999 then padded 4 year.toNat
  else (if year < 0 then "-" else "+") ++ padded 6 year.natAbs

def Instant.isoText (at' : Instant) : String :=
  let (year, month, day) := civilDate (at'.val / 86400000)
  let ms := (at'.val % 86400000).toNat
  yearText year ++ "-" ++ padded 2 month ++ "-" ++ padded 2 day ++ "T"
    ++ padded 2 (ms / 3600000) ++ ":" ++ padded 2 (ms / 60000 % 60) ++ ":"
    ++ padded 2 (ms / 1000 % 60) ++ "." ++ padded 3 (ms % 1000) ++ "Z"

example : Instant.isoText ⟨951782400000, by decide⟩ = "2000-02-29T00:00:00.000Z" := by
  decide

namespace Json

-- ===== lengths

def quoteBytes (s : String) : Nat :=
  2 + (s.toList.map fun c => (escapeChar c).utf8ByteSize).sum

mutual

/-- The length of `JSON.stringify(value, null, 2)` where the value stands
`depth` levels deep: an element is on a line of its own, two spaces a
level, and a comma or the line break of the closing bracket follows it. -/
def indentedBytes (depth : Nat) : Json → Nat
  | .null => 4
  | .bool true => 4
  | .bool false => 5
  | .num text => text.utf8ByteSize
  | .str s => quoteBytes s
  | .arr [] => 2
  | .arr items => itemsBytes depth items + (2 * depth + 2)
  | .obj [] => 2
  | .obj fields => fieldsBytes depth fields + (2 * depth + 2)

def itemsBytes (depth : Nat) : List Json → Nat
  | [] => 0
  | item :: items => 2 * depth + 4 + indentedBytes (depth + 1) item + itemsBytes depth items

def fieldsBytes (depth : Nat) : List (String × Json) → Nat
  | [] => 0
  | (key, value) :: fields =>
    2 * depth + 4 + (quoteBytes key + 2 + indentedBytes (depth + 1) value)
      + fieldsBytes depth fields

end

variable {depth : Nat}

theorem fieldsBytes_append (fields more : List (String × Json)) :
    fieldsBytes depth (fields ++ more) = fieldsBytes depth fields + fieldsBytes depth more := by
  induction fields with
  | nil => rw [List.nil_append, fieldsBytes, Nat.zero_add]
  | cons field fields ih =>
    obtain ⟨key, value⟩ := field
    rw [List.cons_append, fieldsBytes, fieldsBytes, ih]
    omega

theorem indentedBytes_obj {fields : List (String × Json)} (h : fields ≠ []) :
    indentedBytes depth (.obj fields) = fieldsBytes depth fields + (2 * depth + 2) := by
  cases fields with
  | nil => exact absurd rfl h
  | cons field fields => rw [indentedBytes]; exact h

theorem indentedBytes_arr_perm {items items' : List Json} (h : items.Perm items') :
    indentedBytes depth (.arr items) = indentedBytes depth (.arr items') := by
  have hitems : itemsBytes depth items = itemsBytes depth items' := by
    induction h with
    | nil => rfl
    | cons item _ ih => rw [itemsBytes, itemsBytes, ih]
    | swap a b items =>
      simp only [itemsBytes]
      omega
    | trans _ _ hab hbc => exact hab.trans hbc
  cases items with
  | nil =>
    rw [List.nil_perm.1 h]
  | cons a items =>
    have hne : items' ≠ [] := by
      intro hnil
      rw [hnil] at h
      exact absurd (List.perm_nil.1 h) (List.cons_ne_nil a items)
    rw [indentedBytes, indentedBytes, hitems]
    · exact hne
    · exact List.cons_ne_nil a items

theorem indentedBytes_arr_map {α : Type} {f g : α → Json} {growth : α → Nat} {l : List α}
    (h : ∀ a ∈ l, indentedBytes (depth + 1) (g a) = indentedBytes (depth + 1) (f a) + growth a) :
    indentedBytes depth (.arr (l.map g))
    = indentedBytes depth (.arr (l.map f)) + (l.map growth).sum := by
  have hitems : ∀ l : List α,
      (∀ a ∈ l, indentedBytes (depth + 1) (g a) = indentedBytes (depth + 1) (f a) + growth a) →
      itemsBytes depth (l.map g) = itemsBytes depth (l.map f) + (l.map growth).sum := by
    intro l h
    induction l with
    | nil => rfl
    | cons a l ih =>
      rw [List.map_cons, List.map_cons, List.map_cons, itemsBytes, itemsBytes, List.sum_cons,
        h a (List.mem_cons_self ..), ih fun b hb => h b (List.mem_cons_of_mem _ hb)]
      omega
  cases l with
  | nil => rfl
  | cons a l =>
    have hg : (a :: l).map g ≠ [] := by simp
    have hf : (a :: l).map f ≠ [] := by simp
    rw [indentedBytes, indentedBytes, hitems _ h]
    · omega
    · exact hf
    · exact hg

example : indentedBytes 0 (.arr [.num "1", .obj [("a", .bool true)]])
    = "[\n  1,\n  \x7b\n    \"a\": true\n  \x7d\n]".utf8ByteSize := by
  decide

end Json

end OperatorRuntime
