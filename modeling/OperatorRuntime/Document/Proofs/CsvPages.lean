/-
The pages of a CSV document. What the loop of a page has gathered fits as
it stands (`Filled`), so the check after the loop repeats the one of its
last round; it decides only about a page without rows, at the end. Each
page moves past a row at least, and with it the walk ends.
-/
import Mathlib.Data.List.TakeDrop
import OperatorRuntime.Document.DocumentData

namespace OperatorRuntime.Document

-- ===== one page

/-- The rows from one offset to another. -/
def between (extracted : Extracted) (offset next : Nat) : List (List Cell) :=
  (extracted.rows.drop offset).take (next - offset)

/-- The page of the row at an offset, with nothing else; at the end of the
rows, of the metadata alone. -/
def alone (base : Base) (extracted : Extracted) (offset : Nat) : Output :=
  wrapper base extracted offset (between extracted offset (offset + 1)) (offset + 1)

/-- Where the loop of a page stands. -/
structure Filled (base : Base) (extracted : Extracted) (offset maxBytes : Nat)
    (outputRows : List (List Cell)) (next : Nat) : Prop where
  begun : offset ≤ next
  within : next ≤ extracted.rows.length
  gathered : outputRows = between extracted offset next
  fits : outputRows ≠ [] → (wrapper base extracted offset outputRows next).size ≤ maxBytes

section
variable {base : Base} {extracted : Extracted} {offset maxBytes : Nat}

theorem between_self : between extracted offset offset = [] := by
  rw [between, Nat.sub_self, List.take_zero]

theorem between_succ {next : Nat} {row : List Cell} {rows : List (List Cell)}
    (h : offset ≤ next) (hrow : extracted.rows.drop next = row :: rows) :
    between extracted offset (next + 1) = between extracted offset next ++ [row] := by
  have hlast : (extracted.rows.drop offset)[next - offset]? = some row := by
    rw [List.getElem?_drop, Nat.add_sub_cancel' h, ← List.head?_drop, hrow, List.head?_cons]
  rw [between, Nat.succ_sub h, List.take_add_one, hlast]
  rfl

theorem between_append {next stop : Nat} (h : offset ≤ next) (h' : next ≤ stop) :
    between extracted offset next ++ between extracted next stop = between extracted offset stop := by
  have hstop : stop - offset = (next - offset) + (stop - next) := by omega
  rw [between, between, between, hstop, List.take_add, List.drop_drop, Nat.add_sub_cancel' h]

theorem between_length {next : Nat} (hle : next ≤ extracted.rows.length) :
    (between extracted offset next).length = next - offset := by
  rw [between, List.length_take, List.length_drop]
  omega

theorem Filled.eq_of_nil {next : Nat} (h : Filled base extracted offset maxBytes [] next) :
    next = offset := by
  have hlength := congrArg List.length h.gathered
  rw [between_length h.within, List.length_nil] at hlength
  have := h.begun
  omega

theorem fillPage_spec {rows outputRows : List (List Cell)} {next : Nat}
    (hfilled : Filled base extracted offset maxBytes outputRows next)
    (hrows : rows = extracted.rows.drop next) : (∀ outputRows' next',
        fillPage base extracted offset maxBytes rows next outputRows = .ok (outputRows', next') →
        Filled base extracted offset maxBytes outputRows' next'
          ∧ (outputRows' = [] → next' = extracted.rows.length))
      ∧ ∀ e, fillPage base extracted offset maxBytes rows next outputRows = .error e →
        e.code = .documentOutputTooLarge ∧ maxBytes < (alone base extracted offset).size := by
  induction rows generalizing next outputRows with
  | nil =>
    refine ⟨?_, fun e h => (nomatch h)⟩
    intro outputRows' next' h
    cases h
    refine ⟨hfilled, fun _ => ?_⟩
    have hend := List.drop_eq_nil_iff.1 hrows.symm
    exact Nat.le_antisymm hfilled.within hend
  | cons row rows ih =>
    have hlt : next < extracted.rows.length := by
      by_contra hge
      rw [List.drop_of_length_le (by omega)] at hrows
      cases hrows
    rw [fillPage]
    by_cases hcount : outputRows.length < 500
    · rw [if_pos hcount]
      by_cases hlarge : maxBytes
          < (wrapper base extracted offset (outputRows ++ [row]) (next + 1)).size
      · rw [if_pos hlarge]
        by_cases hnil : outputRows = []
        · rw [if_pos hnil]
          refine ⟨fun _ _ h => (nomatch h), ?_⟩
          intro e h
          cases h
          subst hnil
          obtain rfl := hfilled.eq_of_nil
          refine ⟨rfl, ?_⟩
          rw [alone, between_succ (Nat.le_refl _) hrows.symm, between_self]
          exact hlarge
        · rw [if_neg hnil]
          refine ⟨?_, fun e h => (nomatch h)⟩
          intro outputRows' next' h
          cases h
          exact ⟨hfilled, fun h => absurd h hnil⟩
      · rw [if_neg hlarge]
        apply ih
        · refine ⟨hfilled.begun.trans (Nat.le_succ _), hlt, ?_, fun _ => by omega⟩
          rw [between_succ hfilled.begun hrows.symm, ← hfilled.gathered]
        · rw [← List.tail_drop, ← hrows, List.tail_cons]
    · rw [if_neg hcount]
      refine ⟨?_, fun e h => (nomatch h)⟩
      intro outputRows' next' h
      cases h
      refine ⟨hfilled, ?_⟩
      rintro rfl
      exact absurd (by decide) hcount

/-- A page: it fits, and holds the rows up to the next offset. -/
structure Answer (extracted : Extracted) (offset maxBytes : Nat) (output : Output) (next : Nat) :
    Prop where
  fits : output.size ≤ maxBytes
  rows : output.rows = between extracted offset next
  nextOffset : output.nextOffset = following extracted next
  begins : output.offset = offset
  within : next ≤ extracted.rows.length
  moved : offset < next ∨ next = extracted.rows.length ∧ offset = next

theorem boundCsvExtract_spec (base : Base) (maxBytes : Nat) {input : Field} (hoffset : boundedCsvOffset input = .ok offset)
    (hle : offset ≤ extracted.rows.length) :
    (∀ output, boundCsvExtract base extracted input maxBytes = .ok output →
        ∃ next, Answer extracted offset maxBytes output next)
      ∧ ∀ e, boundCsvExtract base extracted input maxBytes = .error e →
        e.code = .documentOutputTooLarge ∧ maxBytes < (alone base extracted offset).size := by
  have hstart : Filled base extracted offset maxBytes [] offset :=
    ⟨Nat.le_refl _, hle, between_self.symm, fun h => absurd rfl h⟩
  obtain ⟨hok, herror⟩ := fillPage_spec hstart rfl
  rw [boundCsvExtract, hoffset, ok_bind, rejectIf_of_not (by omega), ok_bind]
  cases hfill : fillPage base extracted offset maxBytes (extracted.rows.drop offset) offset [] with
  | error e =>
    rw [error_bind]
    refine ⟨fun _ h => (by cases h), ?_⟩
    intro e' h
    cases h
    exact herror e hfill
  | ok filled =>
    obtain ⟨outputRows, next⟩ := filled
    obtain ⟨hfilled, hend⟩ := hok outputRows next hfill
    rw [ok_bind]
    dsimp only
    by_cases hlarge : maxBytes < (wrapper base extracted offset outputRows next).size
    · have hnil : outputRows = [] := by
        by_contra hne
        have := hfilled.fits hne
        omega
      have hnext := hend hnil
      subst hnil
      obtain rfl := hfilled.eq_of_nil
      have halone : alone base extracted next = wrapper base extracted next [] next := by
        have hlast : between extracted next (next + 1) = [] := by
          rw [between, List.drop_of_length_le (by omega), List.take_nil]
        rw [alone, hlast, wrapper, wrapper, following, following, if_neg (by omega),
          if_neg (by omega)]
      rw [rejectIf, if_pos hlarge]
      refine ⟨fun _ h => (by cases h), ?_⟩
      intro e h
      cases h
      refine ⟨rfl, ?_⟩
      rw [halone]
      exact hlarge
    · rw [rejectIf_of_not hlarge, ok_bind]
      refine ⟨?_, fun e h => (by cases h)⟩
      intro output h
      cases h
      refine ⟨next, Nat.le_of_not_lt hlarge, hfilled.gathered, rfl, rfl, hfilled.within, ?_⟩
      by_cases hnil : outputRows = []
      · refine .inr ⟨hend hnil, ?_⟩
        subst hnil
        exact hfilled.eq_of_nil.symm
      · apply Or.inl
        apply Nat.lt_of_le_of_ne hfilled.begun
        rintro rfl
        exact hnil (hfilled.gathered.trans between_self)

theorem executeCsvExtract_spec (base : Base) (maxBytes : Nat) {input : Field} (hoffset : boundedCsvOffset input = .ok offset)
    (hle : offset ≤ extracted.rows.length) :
    (∀ output, executeCsvExtract base extracted input maxBytes = .ok output →
        ∃ next, Answer extracted offset maxBytes output next)
      ∧ ∀ e, executeCsvExtract base extracted input maxBytes = .error e →
        e.code = .documentOutputTooLarge ∧ maxBytes < (alone base extracted offset).size := by
  have hpage := boundCsvExtract_spec base maxBytes hoffset hle
  have hchecked : ∀ x : Result Output,
      ((∀ output, x = .ok output → ∃ next, Answer extracted offset maxBytes output next)
        ∧ ∀ e, x = .error e →
          e.code = .documentOutputTooLarge ∧ maxBytes < (alone base extracted offset).size) →
      ∀ code message, (∀ output, (x >>= fun output => do
          rejectIf (maxBytes < output.size) code message
          return output) = .ok output → ∃ next, Answer extracted offset maxBytes output next)
        ∧ ∀ e, (x >>= fun output => do
          rejectIf (maxBytes < output.size) code message
          return output) = .error e →
          e.code = .documentOutputTooLarge ∧ maxBytes < (alone base extracted offset).size := by
    rintro x ⟨hok, herror⟩ code message
    cases x with
    | error e =>
      rw [error_bind]
      exact ⟨fun _ h => (nomatch h), herror⟩
    | ok output =>
      obtain ⟨next, hanswer⟩ := hok output rfl
      rw [ok_bind, rejectIf_of_not (Nat.not_lt.2 hanswer.fits), ok_bind]
      exact ⟨hok, fun e h => (nomatch h)⟩
  cases input with
  | absent =>
    unfold executeCsvExtract
    dsimp only
    by_cases hfits : (Output.complete base extracted).size ≤ maxBytes
    · rw [if_pos hfits]
      apply hchecked
      refine ⟨?_, fun e h => (nomatch h)⟩
      intro output h
      cases h
      cases hoffset
      have hend : following extracted extracted.rows.length = none := if_neg (Nat.lt_irrefl _)
      refine ⟨extracted.rows.length, hfits, ?_, hend.symm, rfl, Nat.le_refl _, ?_⟩
      · rw [between, List.drop_zero, Nat.sub_zero, List.take_length]
        rfl
      · omega
    · rw [if_neg hfits]
      exact hchecked _ hpage _ _
  | integer n => exact hchecked _ hpage _ _
  | other => exact hchecked _ hpage _ _

end

-- ===== the walk

/-- Following `page.nextOffset` from a request on, until it is null or an
error occurs: the outputs, and the request that fails with its error. -/
inductive Walk (fetch : Field → Result Output) :
    Field → List Output → Option (Field × OperatorError) → Prop
  | failed {input : Field} {e : OperatorError} (h : fetch input = .error e) :
      Walk fetch input [] (some (input, e))
  | ended {input : Field} {output : Output} (h : fetch input = .ok output)
      (hnull : output.nextOffset = none) : Walk fetch input [output] none
  | followed {input : Field} {output : Output} {next : Nat} {outputs : List Output}
      {ending : Option (Field × OperatorError)} (h : fetch input = .ok output)
      (hnext : output.nextOffset = some next) (rest : Walk fetch (.integer next) outputs ending) :
      Walk fetch input (output :: outputs) ending

theorem Walk.unique {fetch : Field → Result Output} {input : Field}
    {outputs outputs' : List Output} {ending ending' : Option (Field × OperatorError)}
    (h : Walk fetch input outputs ending) (h' : Walk fetch input outputs' ending') :
    outputs = outputs' ∧ ending = ending' := by
  induction h generalizing outputs' ending' with
  | failed h =>
    cases h' with
    | failed h' =>
      rw [h] at h'
      cases h'
      exact ⟨rfl, rfl⟩
    | ended h' _ => exact absurd (h.symm.trans h') (by simp)
    | followed h' _ _ => exact absurd (h.symm.trans h') (by simp)
  | ended h hnull =>
    cases h' with
    | failed h' => exact absurd (h.symm.trans h') (by simp)
    | ended h' _ =>
      rw [h] at h'
      cases h'
      exact ⟨rfl, rfl⟩
    | followed h' hnext _ =>
      rw [h] at h'
      cases h'
      rw [hnull] at hnext
      cases hnext
  | followed h hnext rest ih =>
    cases h' with
    | failed h' => exact absurd (h.symm.trans h') (by simp)
    | ended h' hnull =>
      rw [h] at h'
      cases h'
      rw [hnull] at hnext
      cases hnext
    | followed h' hnext' rest' =>
      rw [h] at h'
      cases h'
      rw [hnext] at hnext'
      cases hnext'
      obtain ⟨rfl, rfl⟩ := ih rest'
      exact ⟨rfl, rfl⟩

section
variable (base : Base) (extracted : Extracted) (maxBytes : Nat)

/-- What a walk from a row on answers: pages that fit, none without rows
before the end, and together the rows up to where it ends. An error occurs
where a row alone, or the metadata alone, does not fit. -/
structure Covers (offset : Nat) (outputs : List Output)
    (ending : Option (Field × OperatorError)) : Prop where
  fit : ∀ output ∈ outputs, output.size ≤ maxBytes
  filled : ∀ output ∈ outputs, output.offset < extracted.rows.length → output.rows ≠ []
  complete : ending = none → outputs.flatMap Output.rows = extracted.rows.drop offset
  failed : ∀ input e, ending = some (input, e) → ∃ stop, boundedCsvOffset input = .ok stop
    ∧ offset ≤ stop ∧ stop ≤ extracted.rows.length
    ∧ outputs.flatMap Output.rows = between extracted offset stop
    ∧ e.code = .documentOutputTooLarge ∧ maxBytes < (alone base extracted stop).size

variable {base extracted maxBytes}

theorem boundedCsvOffset_integer {n : Nat} (h : n ≤ 10000) :
    boundedCsvOffset (.integer n) = .ok n := by
  rw [boundedCsvOffset, if_neg (by omega), Int.toNat_natCast]

theorem Answer.filled {offset next : Nat} {output : Output}
    (h : Answer extracted offset maxBytes output next)
    (hlt : output.offset < extracted.rows.length) : output.rows ≠ [] := by
  intro hnil
  have hlength := congrArg List.length h.rows
  rw [hnil, between_length h.within, List.length_nil] at hlength
  have hbegins := h.begins
  rcases h.moved with hmoved | ⟨hend, hsame⟩
  · omega
  · omega

theorem Covers.cons {offset next : Nat} {output : Output} {outputs : List Output}
    {ending : Option (Field × OperatorError)} (h : Answer extracted offset maxBytes output next)
    (hle : offset ≤ next) (rest : Covers base extracted maxBytes next outputs ending) :
    Covers base extracted maxBytes offset (output :: outputs) ending := by
  refine ⟨?_, ?_, ?_, ?_⟩
  · intro output' hin
    rcases List.mem_cons.1 hin with rfl | hin
    · exact h.fits
    · exact rest.fit output' hin
  · intro output' hin
    rcases List.mem_cons.1 hin with rfl | hin
    · exact h.filled
    · exact rest.filled output' hin
  · intro hending
    have hdrop : extracted.rows.drop next = (extracted.rows.drop offset).drop (next - offset) := by
      rw [List.drop_drop, Nat.add_sub_cancel' hle]
    rw [List.flatMap_cons, rest.complete hending, h.rows, between, hdrop, List.take_append_drop]
  · intro input e hending
    obtain ⟨stop, hstop, hnext, hwithin, hrows, herror⟩ := rest.failed input e hending
    refine ⟨stop, hstop, hle.trans hnext, hwithin, ?_, herror⟩
    rw [List.flatMap_cons, hrows, h.rows, between_append hle hnext]

theorem exists_walk (base : Base) (maxBytes : Nat) (hrows : extracted.rows.length ≤ 10000) {input : Field} {offset : Nat}
    (hoffset : boundedCsvOffset input = .ok offset) (hle : offset ≤ extracted.rows.length) :
    ∃ outputs ending,
      Walk (fun input => executeCsvExtract base extracted input maxBytes) input outputs ending
        ∧ Covers base extracted maxBytes offset outputs ending := by
  induction hleft : extracted.rows.length - offset using Nat.strongRecOn
    generalizing input offset with
  | ind left ih =>
    obtain ⟨hok, herror⟩ :=
      executeCsvExtract_spec base maxBytes hoffset hle
    cases hfetch : executeCsvExtract base extracted input maxBytes with
    | error e =>
      refine ⟨[], some (input, e), .failed hfetch, ?_, ?_, ?_, ?_⟩
      · exact fun output hin => (nomatch hin)
      · exact fun output hin => (nomatch hin)
      · exact fun hnone => (nomatch hnone)
      · intro input' e' hending
        cases hending
        obtain ⟨hcode, hlarge⟩ := herror e hfetch
        exact ⟨offset, hoffset, Nat.le_refl _, hle, between_self.symm, hcode, hlarge⟩
    | ok output =>
      obtain ⟨next, hanswer⟩ := hok output hfetch
      have hbegun : offset ≤ next := by
        rcases hanswer.moved with hmoved | ⟨-, hsame⟩
        · omega
        · omega
      by_cases hlt : next < extracted.rows.length
      · have hmoved : offset < next := by
          rcases hanswer.moved with hmoved | ⟨hend, -⟩
          · exact hmoved
          · omega
        have hsome : output.nextOffset = some next := by
          rw [hanswer.nextOffset, following, if_pos hlt]
        obtain ⟨outputs, ending, hwalk, hcovers⟩ :=
          ih (extracted.rows.length - next) (by omega)
            (boundedCsvOffset_integer (hlt.le.trans hrows)) hlt.le rfl
        exact ⟨output :: outputs, ending, .followed hfetch hsome hwalk,
          hcovers.cons hanswer hbegun⟩
      · have hnone : output.nextOffset = none := by
          rw [hanswer.nextOffset, following, if_neg hlt]
        obtain rfl : next = extracted.rows.length := Nat.le_antisymm hanswer.within (by omega)
        refine ⟨[output], none, .ended hfetch hnone, ?_⟩
        apply Covers.cons hanswer hbegun
        refine ⟨fun _ hin => (nomatch hin), fun _ hin => (nomatch hin), ?_, fun _ _ h => (nomatch h)⟩
        intro _
        rw [List.drop_length]
        rfl

end

/-- Pagination is exact: from every valid request the walk ends, and it
covers the rows from its offset on. -/
theorem csv_walk_exact (base : Base) (extracted : Extracted) (maxBytes : Nat)
    (hrows : extracted.rows.length ≤ 10000) (input : Field) (offset : Nat)
    (hoffset : boundedCsvOffset input = .ok offset) (hle : offset ≤ extracted.rows.length) :
    ∃ outputs ending,
      Walk (fun input => executeCsvExtract base extracted input maxBytes) input outputs ending
        ∧ (∀ outputs' ending',
          Walk (fun input => executeCsvExtract base extracted input maxBytes) input outputs' ending' →
            outputs' = outputs ∧ ending' = ending)
        ∧ Covers base extracted maxBytes offset outputs ending := by
  obtain ⟨outputs, ending, hwalk, hcovers⟩ :=
    exists_walk base maxBytes hrows hoffset hle
  exact ⟨outputs, ending, hwalk, fun outputs' ending' hwalk' => hwalk'.unique hwalk, hcovers⟩

def twoRows : Extracted where
  text := "a,b\n1,2\n".toList
  rows := [["a".toList, "b".toList], ["1".toList, "2".toList]]
  sourceTruncated := false

def someFile : Base where
  path := "/data.csv"
  format := "csv"
  mimeType := "text/csv"
  size := 8
  sha256 := "00"

/-- Two rows, given out in one page. -/
theorem csv_walk_two_rows : ∃ outputs ending,
      Walk (fun input => executeCsvExtract someFile twoRows input 1024) (.integer 1) outputs ending
        ∧ (∀ outputs' ending',
          Walk (fun input => executeCsvExtract someFile twoRows input 1024) (.integer 1)
              outputs' ending' → outputs' = outputs ∧ ending' = ending)
        ∧ Covers someFile twoRows 1024 1 outputs ending :=
  csv_walk_exact someFile twoRows 1024 (by decide) (.integer 1) 1 (by rfl) (by decide)

end OperatorRuntime.Document
