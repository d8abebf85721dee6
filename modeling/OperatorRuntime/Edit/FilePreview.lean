/-
`previewFile` of `core/multi-file-edit-plan.ts`: the lines an edit changes, read
off a scan from the first line and one from the last.
-/
import OperatorRuntime.CodeIndex.WorkspaceCodeIndex

namespace OperatorRuntime.Edit

open CodeIndex (splitLines)

-- ===== preview

/-- How many lines a scan goes over before two lines differ. -/
def equalLines : List Units → List Units → Nat
  | a :: as, b :: bs => if a = b then equalLines as bs + 1 else 0
  | _, _ => 0

structure EditFilePreview where
  path : String
  beforeSha256 : String
  afterSha256 : String
  beforeBytes : Nat
  afterBytes : Nat
  beforeLines : Nat
  afterLines : Nat
  firstChangedLine : Option Nat
  lastChangedLineBefore : Option Nat
  lastChangedLineAfter : Option Nat

/-- `sha256Text` is a parameter. The scan from the last line stops where the
first one did. -/
def previewFile (sha256Text : Units → String) (path : String) (before after : Units) :
    EditFilePreview :=
  let beforeLines := splitLines before
  let afterLines := splitLines after
  let shared := equalLines beforeLines afterLines
  let suffix := equalLines (beforeLines.drop shared).reverse (afterLines.drop shared).reverse
  let changed (line : Nat) := if before ≠ after then some line else none
  { path
    beforeSha256 := sha256Text before
    afterSha256 := sha256Text after
    beforeBytes := before.byteLength
    afterBytes := after.byteLength
    beforeLines := beforeLines.length
    afterLines := afterLines.length
    firstChangedLine := changed (shared + 1)
    lastChangedLineBefore := changed (max (shared + 1) (beforeLines.length - suffix))
    lastChangedLineAfter := changed (max (shared + 1) (afterLines.length - suffix)) }

-- ===== scans

theorem equalLines_le (as bs : List Units) :
    equalLines as bs ≤ as.length ∧ equalLines as bs ≤ bs.length := by
  fun_induction equalLines as bs with
  | case1 as b bs ih => simpa using ih
  | case2 a as b bs hne => simp
  | case3 as bs hnot => simp

theorem take_equalLines (as bs : List Units) :
    as.take (equalLines as bs) = bs.take (equalLines as bs) := by
  fun_induction equalLines as bs with
  | case1 as b bs ih => rw [List.take_succ_cons, List.take_succ_cons, ih]
  | case2 a as b bs hne => rfl
  | case3 as bs hnot => rfl

theorem differ_at_equalLines {as bs : List Units} (h : as ≠ bs) :
    as[equalLines as bs]? ≠ bs[equalLines as bs]? := by
  fun_induction equalLines as bs with
  | case1 as b bs ih =>
    rw [List.getElem?_cons_succ, List.getElem?_cons_succ]
    exact ih fun heq => h (congrArg _ heq)
  | case2 a as b bs hne => simpa using hne
  | case3 as bs hnot =>
    cases as with
    | nil =>
      cases bs with
      | nil => exact absurd rfl h
      | cons b bs => simp
    | cons a as =>
      cases bs with
      | nil => simp
      | cons b bs => exact absurd rfl (hnot a as b bs rfl)

theorem drop_equalLines (as bs : List Units) :
    as.drop (as.length - equalLines as.reverse bs.reverse)
    = bs.drop (bs.length - equalLines as.reverse bs.reverse) := by
  have htake := take_equalLines as.reverse bs.reverse
  rwa [List.take_reverse, List.take_reverse, List.reverse_inj] at htake

-- ===== changed lines

/-- Lines `first` to `lastBefore` became lines `first` to `lastAfter`. Where
lines were only put in or only taken out, the other text has none, and goes on
with its line `first`. -/
structure Changed (before after : List Units) (first lastBefore lastAfter : Nat) : Prop where
  inside : 1 ≤ first ∧ first ≤ max before.length after.length
  ahead : before.take (first - 1) = after.take (first - 1)
  behind : before.drop lastBefore = after.drop lastAfter
    ∨ before.drop (first - 1) = after.drop lastAfter
    ∨ before.drop lastBefore = after.drop (first - 1)
  range : first ≤ lastBefore ∧ first ≤ lastAfter
  differs : before[first - 1]? ≠ after[first - 1]?

end OperatorRuntime.Edit
