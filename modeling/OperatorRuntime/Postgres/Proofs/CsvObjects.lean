/-
`parseCsvObjects` reads what a table is rendered to, and what it accepts renders
its result. Both go through the scanner: `scan_line` runs it over one rendered
record, `Reads` says what it has read at any place.

A line that ends in CR cannot be followed by an empty line that ends in LF: the
two endings are one CRLF.
-/
import Mathlib.Data.List.Chain
import OperatorRuntime.Lib.Passes
import OperatorRuntime.Postgres.CsvObjects

namespace OperatorRuntime.Postgres

open Lib

-- ===== renderings

/-- A value that needs no quotes. -/
def Plain (value : Units) : Prop :=
  ∀ u ∈ value, u ≠ comma ∧ u ≠ quote ∧ u ≠ carriageReturn ∧ u ≠ lineFeed

instance (value : Units) : Decidable (Plain value) :=
  List.decidableBAll _ _

def doubled (value : Units) : Units :=
  value.flatMap fun u => if u = quote then [quote, quote] else [u]

/-- A cell and a field that renders it. -/
inductive RendersField : Option Units → Units → Prop
  | null : RendersField none []
  | bare {value : Units} (hne : value ≠ []) (hplain : Plain value) :
      RendersField (some value) value
  | quoted (value : Units) : RendersField (some value) (quote :: (doubled value ++ [quote]))

/-- The cells of a record and a text that renders it. -/
def RendersRecord (cells : List (Option Units)) (text : Units) : Prop :=
  cells ≠ [] ∧ ∃ fields, List.Forall₂ RendersField cells fields ∧ text = [comma].intercalate fields

inductive Ending
  | lf
  | cr
  | crlf
deriving DecidableEq

def Ending.text : Ending → Units
  | .lf => [lineFeed]
  | .cr => [carriageReturn]
  | .crlf => [carriageReturn, lineFeed]

structure Line where
  text : Units
  ending : Ending
deriving DecidableEq

def linesText (lines : List Line) : Units :=
  lines.flatMap fun line => line.text ++ line.ending.text

/-- The ending of the one line and the empty second line are no CRLF. -/
def Apart (a b : Line) : Prop :=
  ¬ (a.ending = .cr ∧ b.text = [] ∧ b.ending = .lf)

/-- The lines render the records. -/
structure Renders (records : List (List (Option Units))) (lines : List Line) : Prop where
  records : List.Forall₂ RendersRecord records (lines.map Line.text)
  apart : lines.IsChain Apart

-- ===== rendered fields

variable {maxRows : ℤ} {s s' : Scan} {text rest : Units} {cell : Option Units}
  {cells : List (Option Units)} {u : UInt16}

/-- What may stand behind a field. -/
def Stops (rest : Units) : Prop :=
  ∀ u ∈ rest.head?, u = comma ∨ u = lineFeed ∨ u = carriageReturn

/-- The scan takes one unit. -/
theorem scan_step {skip : Bool} (h : s.scanUnit maxRows u rest.head? = .ok (s', skip)) :
    s.scan maxRows false (u :: rest) = s'.scan maxRows skip rest := by
  rw [Scan.scan, h]
  rfl

theorem scanUnit_bare (maxRows : ℤ) (hstate : s.state = .start ∨ s.state = .unquoted)
    (hu : u ≠ comma ∧ u ≠ quote ∧ u ≠ carriageReturn ∧ u ≠ lineFeed) (next : Option UInt16) :
    s.scanUnit maxRows u next
    = .ok ({ s with field := s.field ++ [u], state := .unquoted }, false) := by
  have hquoted : s.state ≠ .quoted := by
    rcases hstate with h | h
    · rw [h]
      decide
    · rw [h]
      decide
  have hafter : s.state ≠ .afterQuote := by
    rcases hstate with h | h
    · rw [h]
      decide
    · rw [h]
      decide
  obtain ⟨hcomma, hquote, hcr, hlf⟩ := hu
  rw [Scan.scanUnit, if_neg hquoted, if_neg hcomma, if_neg (by simp [hcr, hlf]), if_neg hafter,
    if_neg hquote]

theorem scan_plain (hplain : Plain text) (hstate : s.state = .start ∨ s.state = .unquoted)
    (hne : text ≠ []) : s.scan maxRows false (text ++ rest)
    = { s with field := s.field ++ text, state := .unquoted }.scan maxRows false rest := by
  induction text generalizing s with
  | nil => exact absurd rfl hne
  | cons u text ih =>
    have hstep := scanUnit_bare maxRows hstate (hplain u (List.mem_cons_self ..))
      (text ++ rest).head?
    rw [List.cons_append, scan_step hstep]
    by_cases htext : text = []
    · rw [htext]
      rfl
    · rw [ih (fun v hv => hplain v (List.mem_cons_of_mem _ hv)) (.inr rfl) htext]
      simp

theorem scan_doubled (hstate : s.state = .quoted) (value : Units) :
    s.scan maxRows false (doubled value ++ rest)
    = { s with field := s.field ++ value }.scan maxRows false rest := by
  induction value generalizing s with
  | nil =>
    show s.scan maxRows false rest = _
    rw [List.append_nil]
  | cons u value ih =>
    by_cases hu : u = quote
    · have hstep : s.scanUnit maxRows quote (quote :: (doubled value ++ rest)).head?
          = .ok ({ s with field := s.field ++ [quote] }, true) := by
        rw [Scan.scanUnit, if_pos hstate, if_pos rfl, if_pos List.head?_cons]
      have htext : doubled (u :: value) ++ rest = quote :: quote :: (doubled value ++ rest) := by
        simp [doubled, hu]
      rw [htext, scan_step hstep, Scan.scan, ih (by exact hstate), hu]
      simp
    · have hstep : s.scanUnit maxRows u (doubled value ++ rest).head?
          = .ok ({ s with field := s.field ++ [u] }, false) := by
        rw [Scan.scanUnit, if_pos hstate, if_neg hu]
      have htext : doubled (u :: value) ++ rest = u :: (doubled value ++ rest) := by
        simp [doubled, hu]
      rw [htext, scan_step hstep, ih (by exact hstate)]
      simp

def atField (records : List (List Cell)) (row : List Cell) : Scan where
  records := records
  row := row
  field := []
  quoted := false
  state := .start

variable {records : List (List Cell)} {row : List Cell}

theorem scan_field (maxRows : ℤ) (records : List (List Cell)) (row : List Cell)
    (h : RendersField cell text) (hstops : Stops rest) :
    ∃ s : Scan, s.state ≠ .quoted ∧ s.records = records ∧ s.row = row
    ∧ Cell.read ⟨s.field, s.quoted⟩ = cell
    ∧ (atField records row).scan maxRows false (text ++ rest) = s.scan maxRows false rest := by
  cases h with
  | null => exact ⟨atField records row, by simp [atField], rfl, rfl, rfl, rfl⟩
  | bare hne hplain =>
    refine ⟨{ atField records row with field := [] ++ text, state := .unquoted }, by simp, rfl, rfl,
      ?_, scan_plain hplain (.inl rfl) hne⟩
    simp [Cell.read, hne]
  | quoted value =>
    refine ⟨⟨records, row, value, true, .afterQuote⟩, by simp, rfl, rfl, by simp [Cell.read], ?_⟩
    have hopen : (atField records row).scanUnit maxRows quote
        (doubled value ++ (quote :: rest)).head? = .ok (⟨records, row, [], true, .quoted⟩, false) := by
      rfl
    have hnext : rest.head? ≠ some quote := by
      intro hhead
      rcases hstops quote hhead with h | h | h
      · exact absurd h (by decide)
      · exact absurd h (by decide)
      · exact absurd h (by decide)
    have hclose : Scan.scanUnit maxRows ⟨records, row, value, true, .quoted⟩ quote rest.head?
        = .ok (⟨records, row, value, true, .afterQuote⟩, false) := by
      rw [Scan.scanUnit, if_pos rfl, if_pos rfl, if_neg hnext]
    have htext : quote :: (doubled value ++ [quote]) ++ rest
        = quote :: (doubled value ++ (quote :: rest)) := by
      simp
    rw [htext, scan_step hopen, scan_doubled rfl]
    exact scan_step hclose

theorem stops_comma (rest : Units) : Stops (comma :: rest) := by
  intro u hu
  exact .inl (Option.some.inj hu).symm

theorem scanUnit_comma (h : s.state ≠ .quoted) (next : Option UInt16) :
    s.scanUnit maxRows comma next = .ok (s.pushField, false) := by
  rw [Scan.scanUnit, if_neg h, if_pos rfl]

theorem scan_fields (maxRows : ℤ) (records : List (List Cell)) {fields : List Units}
    (h : List.Forall₂ RendersField cells fields) (row : List Cell) (hne : cells ≠ [])
    (hstops : Stops rest) : ∃ s : Scan, s.state ≠ .quoted ∧ s.records = records
    ∧ s.pushField.row.map Cell.read = row.map Cell.read ++ cells
    ∧ (atField records row).scan maxRows false ([comma].intercalate fields ++ rest)
      = s.scan maxRows false rest := by
  induction h generalizing row with
  | nil => exact absurd rfl hne
  | @cons cell field cells fields hfield hfields ih =>
    cases hfields with
    | nil =>
      obtain ⟨s, hstate, hrecords, hrow, hread, hscan⟩ :=
        scan_field maxRows records row hfield hstops
      refine ⟨s, hstate, hrecords, ?_, ?_⟩
      · simp [Scan.pushField, hrow, hread]
      · rw [List.intercalate_singleton]
        exact hscan
    | @cons cell' field' cells' fields' hfield' hfields' =>
      obtain ⟨s, hstate, hrecords, hrow, hread, hscan⟩ :=
        scan_field maxRows records row hfield
          (stops_comma ([comma].intercalate (field' :: fields') ++ rest))
      obtain ⟨s', hstate', hrecords', hrow', hscan'⟩ :=
        ih s.pushField.row (by simp)
      refine ⟨s', hstate', hrecords', ?_, ?_⟩
      · rw [hrow']
        simp [Scan.pushField, hrow, hread]
      · have hpushed : s.pushField = atField records s.pushField.row := by
          simp [Scan.pushField, atField, hrecords]
        rw [List.intercalate_cons_cons]
        simp only [List.append_assoc, List.cons_append, List.nil_append]
        rw [hscan, scan_step (scanUnit_comma hstate _), hpushed]
        exact hscan'

-- ===== rendered records

theorem pushRow_eq_ok (h : (s.records.length : ℤ) ≤ maxRows) :
    s.pushRow maxRows = .ok (atField (s.records ++ [s.pushField.row]) []) := by
  have hbound : ¬ maxRows + 1 < ((s.pushField.records ++ [s.pushField.row]).length : ℤ) := by
    rw [List.length_append, List.length_singleton]
    show ¬ maxRows + 1 < ((s.records.length + 1 : ℕ) : ℤ)
    omega
  rw [Scan.pushRow, rejectIf_of_not hbound]
  rfl

theorem scan_ending (h : s.state ≠ .quoted) (hroom : (s.records.length : ℤ) ≤ maxRows)
    {ending : Ending} (hnext : ending = .cr → rest.head? ≠ some lineFeed) :
    s.scan maxRows false (ending.text ++ rest)
    = (atField (s.records ++ [s.pushField.row]) []).scan maxRows false rest := by
  have hunit : ∀ u next, u = lineFeed ∨ u = carriageReturn → s.scanUnit maxRows u next
        = .ok (atField (s.records ++ [s.pushField.row]) [],
          decide (u = carriageReturn ∧ next = some lineFeed)) := by
    intro u next hu
    have hcomma : u ≠ comma := by
      rcases hu with rfl | rfl
      · decide
      · decide
    rw [Scan.scanUnit, if_neg h, if_neg hcomma, if_pos hu, pushRow_eq_ok hroom]
    rfl
  cases ending with
  | lf =>
    show s.scan maxRows false (lineFeed :: rest) = _
    exact scan_step (hunit _ _ (.inl rfl))
  | cr =>
    show s.scan maxRows false (carriageReturn :: rest) = _
    have hstep := hunit carriageReturn rest.head? (.inr rfl)
    rw [decide_eq_false fun hboth => hnext rfl hboth.2] at hstep
    exact scan_step hstep
  | crlf =>
    show s.scan maxRows false (carriageReturn :: lineFeed :: rest) = _
    exact scan_step (hunit carriageReturn (lineFeed :: rest).head? (.inr rfl))

theorem stops_ending (ending : Ending) (rest : Units) : Stops (ending.text ++ rest) := by
  intro u hu
  cases ending with
  | lf => exact .inr (.inl (Option.some.inj hu).symm)
  | cr => exact .inr (.inr (Option.some.inj hu).symm)
  | crlf => exact .inr (.inr (Option.some.inj hu).symm)

theorem scan_line (records : List (List Cell)) (rest : Units) (h : RendersRecord cells text)
    (hroom : (records.length : ℤ) ≤ maxRows)
    {ending : Ending} (hnext : ending = .cr → rest.head? ≠ some lineFeed) :
    ∃ row : List Cell, row.map Cell.read = cells
    ∧ (atField records []).scan maxRows false (text ++ ending.text ++ rest)
      = (atField (records ++ [row]) []).scan maxRows false rest := by
  obtain ⟨hne, fields, hfields, rfl⟩ := h
  obtain ⟨s, hstate, hrecords, hrow, hscan⟩ :=
    scan_fields maxRows records hfields [] hne (stops_ending ending rest)
  subst hrecords
  refine ⟨s.pushField.row, hrow, ?_⟩
  rw [List.append_assoc, hscan]
  exact scan_ending hstate hroom hnext

theorem rendersField_head {field : Units} (h : RendersField cell field) (hne : field ≠ []) :
    field.head? ≠ some lineFeed := by
  intro hhead
  cases h with
  | null => exact hne rfl
  | bare hvalue hplain => exact (hplain _ (List.mem_of_mem_head? hhead)).2.2.2 rfl
  | quoted value => exact absurd (Option.some.inj hhead) (by decide)

theorem line_head {line : Line} (rest : Units) (h : RendersRecord cells line.text)
    (hhead : (line.text ++ line.ending.text ++ rest).head? = some lineFeed) :
    line.text = [] ∧ line.ending = .lf := by
  by_cases htext : line.text = []
  · refine ⟨htext, ?_⟩
    rw [htext] at hhead
    cases hending : line.ending with
    | lf => rfl
    | cr =>
      rw [hending] at hhead
      exact absurd (Option.some.inj hhead) (by decide)
    | crlf =>
      rw [hending] at hhead
      exact absurd (Option.some.inj hhead) (by decide)
  · exfalso
    have hfirst : line.text.head? = some lineFeed := by
      rw [List.append_assoc, List.head?_append_of_ne_nil _ htext] at hhead
      exact hhead
    obtain ⟨hne, fields, hfields, hline⟩ := h
    cases hfields with
    | nil => exact hne rfl
    | @cons cell field cells fields hfield hfields =>
      by_cases hempty : field = []
      · cases hfields with
        | nil =>
          rw [hline, List.intercalate_singleton] at htext
          exact htext hempty
        | cons hfield' hfields' =>
          rw [hline, List.intercalate_cons_cons, hempty] at hfirst
          exact absurd (Option.some.inj hfirst) (by decide)
      · refine rendersField_head hfield hempty ?_
        cases hfields with
        | nil => rwa [hline, List.intercalate_singleton] at hfirst
        | cons hfield' hfields' =>
          rw [hline, List.intercalate_cons_cons, List.append_assoc,
            List.head?_append_of_ne_nil _ hempty] at hfirst
          exact hfirst

theorem scan_lines (maxRows : ℤ) {lines : List Line} {recordCells : List (List (Option Units))}
    (h : Renders recordCells lines) (records : List (List Cell))
    (hroom : ((records.length + recordCells.length : ℕ) : ℤ) ≤ maxRows + 1) :
    ∃ rows : List (List Cell), rows.map (·.map Cell.read) = recordCells
    ∧ (atField records []).scan maxRows false (linesText lines)
      = .ok (atField (records ++ rows) []) := by
  induction lines generalizing records recordCells with
  | nil =>
    have hnil : recordCells = [] := by
      cases h.records
      rfl
    subst hnil
    exact ⟨[], rfl, by rw [List.append_nil]; rfl⟩
  | cons line lines ih =>
    have hrecords := h.records
    rw [List.map_cons] at hrecords
    cases hrecords with
    | @cons cells _ later _ hline hlater =>
      have hapart := h.apart
      rw [List.isChain_cons] at hapart
      obtain ⟨hfirst, hchain⟩ := hapart
      have hnext : line.ending = .cr → (linesText lines).head? ≠ some lineFeed := by
        intro hcr hhead
        cases lines with
        | nil => cases hhead
        | cons line' lines =>
          cases hlater with
          | cons hline' hlater' =>
            have hempty := line_head (linesText lines) hline' hhead
            exact hfirst line' rfl ⟨hcr, hempty⟩
      rw [List.length_cons] at hroom
      obtain ⟨row, hrow, hscan⟩ :=
        scan_line records (linesText lines) hline
          (show (records.length : ℤ) ≤ maxRows by omega) hnext
      obtain ⟨rows, hrows, hscan'⟩ := ih ⟨hlater, hchain⟩ (records ++ [row]) (by
        rw [List.length_append, List.length_singleton]
        omega)
      refine ⟨row :: rows, by rw [List.map_cons, hrow, hrows], ?_⟩
      show (atField records []).scan maxRows false
        (line.text ++ line.ending.text ++ linesText lines) = _
      rw [hscan, hscan', List.append_assoc]
      rfl

-- ===== what is read

/-- What stands before the scanner in the field it is in. -/
def Open (s : Scan) (text : Units) : Prop :=
  match s.state with
  | .start => text = [] ∧ s.field = [] ∧ s.quoted = false
  | .unquoted => text = s.field ∧ s.field ≠ [] ∧ Plain s.field ∧ s.quoted = false
  | .quoted => text = quote :: doubled s.field ∧ s.quoted = true
  | .afterQuote => text = quote :: (doubled s.field ++ [quote]) ∧ s.quoted = true

/-- The read text: lines that render the records, fields that render the row, and
the field that is open. -/
structure Reads (read : Units) (s : Scan) (lines : List Line) (fields : List Units) (field : Units) :
    Prop where
  text : read = linesText lines ++ (fields.flatMap (· ++ [comma]) ++ field)
  renders : Renders (s.records.map (·.map Cell.read)) lines
  row : List.Forall₂ RendersField (s.row.map Cell.read) fields
  field : Open s field

/-- A line feed does not come right after a carriage return that ended a line. -/
def NoFeed (lines : List Line) (fields : List Units) (field rest : Units) : Prop :=
  fields = [] → field = [] → (∃ line ∈ lines.getLast?, line.ending = .cr) →
    rest.head? ≠ some lineFeed

theorem intercalate_fields (fields : List Units) (field : Units) :
    [comma].intercalate (fields ++ [field]) = fields.flatMap (· ++ [comma]) ++ field := by
  induction fields with
  | nil => simp
  | cons f fields ih =>
    cases fields with
    | nil => simp
    | cons f' fields =>
      rw [List.cons_append, List.cons_append, List.intercalate_cons_cons, ← List.cons_append, ih]
      simp

theorem Open.renders {s : Scan} {field : Units} (h : Open s field) (hstate : s.state ≠ .quoted) :
    RendersField (Cell.read ⟨s.field, s.quoted⟩) field := by
  rw [Open] at h
  cases hs : s.state with
  | start =>
    rw [hs] at h
    obtain ⟨rfl, hfield, hquoted⟩ := h
    rw [hfield, hquoted]
    exact .null
  | unquoted =>
    rw [hs] at h
    obtain ⟨rfl, hne, hplain, hquoted⟩ := h
    have hread : Cell.read ⟨s.field, s.quoted⟩ = some s.field := if_neg fun hboth => hne hboth.1
    rw [hread]
    exact .bare hne hplain
  | quoted => exact absurd hs hstate
  | afterQuote =>
    rw [hs] at h
    obtain ⟨rfl, hquoted⟩ := h
    have hread : Cell.read ⟨s.field, s.quoted⟩ = some s.field := by
      rw [hquoted]
      exact if_neg fun hboth => (nomatch hboth.2)
    rw [hread]
    exact .quoted s.field

namespace Reads

variable {read field : Units} {lines : List Line} {fields : List Units}

theorem pushField (h : Reads read s lines fields field) (hstate : s.state ≠ .quoted) :
    Reads (read ++ [comma]) s.pushField lines (fields ++ [field]) [] where
  text := by
    rw [h.text]
    simp
  renders := h.renders
  row := by
    rw [Scan.pushField, List.map_append]
    exact List.rel_append h.row (.cons (h.field.renders hstate) .nil)
  field := ⟨rfl, rfl, rfl⟩

theorem record (h : Reads read s lines fields field) (hstate : s.state ≠ .quoted) :
    RendersRecord (s.pushField.row.map Cell.read) (fields.flatMap (· ++ [comma]) ++ field) := by
  constructor
  · simp [Scan.pushField]
  · refine ⟨fields ++ [field], ?_, (intercalate_fields fields field).symm⟩
    rw [Scan.pushField, List.map_append]
    exact List.rel_append h.row (.cons (h.field.renders hstate) .nil)

theorem pushRow (h : Reads read s lines fields field) (hstate : s.state ≠ .quoted)
    (hpush : s.pushRow maxRows = .ok s') (ending : Ending)
    (hnofeed : NoFeed lines fields field ending.text) : Reads (read ++ ending.text) s'
      (lines ++ [⟨fields.flatMap (· ++ [comma]) ++ field, ending⟩]) [] [] := by
  simp only [Scan.pushRow, bind_eq_ok] at hpush
  obtain ⟨_, -, hpush⟩ := hpush
  cases hpush
  refine ⟨?_, ⟨?_, ?_⟩, .nil, ⟨rfl, rfl, rfl⟩⟩
  · rw [h.text, linesText, linesText, List.flatMap_append]
    simp
  · show List.Forall₂ RendersRecord ((s.records ++ [s.pushField.row]).map (·.map Cell.read)) _
    rw [List.map_append, List.map_append]
    exact List.rel_append h.renders.records (.cons (h.record hstate) .nil)
  · refine h.renders.apart.append (List.isChain_singleton _) ?_
    intro last hlast line hline hboth
    obtain rfl := Option.some.inj hline
    obtain ⟨hcr, htext, hlf⟩ := hboth
    obtain ⟨hfields, hfield⟩ := List.append_eq_nil_iff.1 htext
    have hnone : fields = [] := by
      cases fields with
      | nil => rfl
      | cons f fields => simp at hfields
    refine hnofeed hnone hfield ⟨last, hlast, hcr⟩ ?_
    rw [show ending = .lf from hlf]
    rfl

theorem extend (h : Reads read s lines fields field) (more : Units) (hrecords : s'.records = s.records)
    (hrow : s'.row = s.row) (hopen : Open s' (field ++ more)) :
    Reads (read ++ more) s' lines fields (field ++ more) where
  text := by
    rw [h.text]
    simp
  renders := by
    rw [hrecords]
    exact h.renders
  row := by
    rw [hrow]
    exact h.row
  field := hopen

end Reads

theorem noFeed_of_ne {lines : List Line} {fields : List Units} {field : Units} (h : field ≠ []) :
    NoFeed lines fields field rest :=
  fun _ hfield => absurd hfield h

/-- The scanner has read `read` and, if it skips, the first unit of the text. -/
def Ready (skip : Bool) (read text : Units) (s : Scan) : Prop :=
  ∃ skipped rest lines fields field, text = skipped ++ rest
    ∧ skipped.length = (if skip = true then 1 else 0)
    ∧ Reads (read ++ skipped) s lines fields field ∧ NoFeed lines fields field rest

theorem doubled_append (value more : Units) : doubled (value ++ more) = doubled value ++ doubled more :=
  List.flatMap_append

section
variable {read field : Units} {lines : List Line} {fields : List Units} {skip : Bool}

theorem ready_of_reads (h : Reads (read ++ [u]) s lines fields field)
    (hfeed : NoFeed lines fields field rest) : Ready false (read ++ [u]) rest s :=
  ⟨[], rest, lines, fields, field, rfl, rfl, by rwa [List.append_nil], hfeed⟩

theorem ready_quoted (h : Reads read s lines fields field) (hstate : s.state = .quoted)
    (hunit : s.scanUnit maxRows u rest.head? = .ok (s', skip)) : Ready skip (read ++ [u]) rest s' := by
  have hopen := h.field
  rw [Open, hstate] at hopen
  obtain ⟨rfl, hquoted⟩ := hopen
  rw [Scan.scanUnit, if_pos hstate] at hunit
  by_cases hu : u = quote
  · subst hu
    rw [if_pos rfl] at hunit
    by_cases hnext : rest.head? = some quote
    · rw [if_pos hnext] at hunit
      cases hunit
      obtain ⟨later, rfl⟩ : ∃ later, rest = quote :: later := by
        cases rest with
        | nil => cases hnext
        | cons v later => exact ⟨later, by rw [Option.some.inj hnext]⟩
      refine ⟨[quote], later, lines, fields, quote :: doubled s.field ++ [quote, quote], rfl, rfl, ?_,
        noFeed_of_ne (by simp)⟩
      rw [List.append_assoc, List.singleton_append]
      refine h.extend [quote, quote] (by rfl) (by rfl) ?_
      rw [Open, hstate]
      refine ⟨?_, hquoted⟩
      rw [doubled_append]
      rfl
    · rw [if_neg hnext] at hunit
      cases hunit
      refine ready_of_reads (h.extend [quote] (by rfl) (by rfl) ?_) (noFeed_of_ne (by simp))
      exact ⟨by simp, hquoted⟩
  · rw [if_neg hu] at hunit
    cases hunit
    refine ready_of_reads (h.extend [u] (by rfl) (by rfl) ?_) (noFeed_of_ne (by simp))
    rw [Open, hstate]
    refine ⟨?_, hquoted⟩
    rw [doubled_append]
    simp [doubled, hu]

theorem ready_ending (h : Reads read s lines fields field)
    (hfeed : NoFeed lines fields field (u :: rest)) (hstate : s.state ≠ .quoted)
    (hu : u = lineFeed ∨ u = carriageReturn) (hpush : s.pushRow maxRows = .ok s') :
    Ready (decide (u = carriageReturn ∧ rest.head? = some lineFeed)) (read ++ [u]) rest s' := by
  by_cases hcrlf : u = carriageReturn ∧ rest.head? = some lineFeed
  · obtain ⟨rfl, hnext⟩ := hcrlf
    obtain ⟨later, rfl⟩ : ∃ later, rest = lineFeed :: later := by
      cases rest with
      | nil => cases hnext
      | cons v later => exact ⟨later, by rw [Option.some.inj hnext]⟩
    have hreads := h.pushRow hstate hpush .crlf (fun _ _ _ => by decide)
    refine ⟨[lineFeed], later, lines ++ [⟨fields.flatMap (· ++ [comma]) ++ field, .crlf⟩], [], [], rfl,
      rfl, ?_, ?_⟩
    · rw [List.append_assoc]
      exact hreads
    · intro _ _ hlast
      rw [List.getLast?_concat] at hlast
      obtain ⟨line, hline, hending⟩ := hlast
      rw [← Option.some.inj hline] at hending
      cases hending
  · rw [decide_eq_false hcrlf]
    rcases hu with rfl | rfl
    · have hreads := h.pushRow hstate hpush .lf hfeed
      refine ready_of_reads hreads ?_
      intro _ _ hlast
      rw [List.getLast?_concat] at hlast
      obtain ⟨line, hline, hending⟩ := hlast
      rw [← Option.some.inj hline] at hending
      cases hending
    · have hreads := h.pushRow hstate hpush .cr (fun _ _ _ => by decide)
      refine ready_of_reads hreads ?_
      intro _ _ _ hhead
      exact hcrlf ⟨rfl, hhead⟩

theorem ready_bare (h : Reads read s lines fields field) (hstate : s.state = .start ∨ s.state = .unquoted)
    (hu : u ≠ comma ∧ u ≠ quote ∧ u ≠ carriageReturn ∧ u ≠ lineFeed) :
    Ready false (read ++ [u]) rest { s with field := s.field ++ [u], state := .unquoted } := by
  have hopen := h.field
  have hfield : field = s.field ∧ Plain s.field ∧ s.quoted = false := by
    rw [Open] at hopen
    rcases hstate with hs | hs
    · rw [hs] at hopen
      obtain ⟨rfl, hfield, hquoted⟩ := hopen
      rw [hfield]
      exact ⟨rfl, fun _ hin => (nomatch hin), hquoted⟩
    · rw [hs] at hopen
      exact ⟨hopen.1, hopen.2.2⟩
  obtain ⟨rfl, hplain, hquoted⟩ := hfield
  refine ready_of_reads (h.extend [u] (by rfl) (by rfl) ?_) (noFeed_of_ne (by simp))
  refine ⟨rfl, by simp, ?_, hquoted⟩
  intro v hv
  rcases List.mem_append.1 hv with hv | hv
  · exact hplain v hv
  · rw [List.mem_singleton.1 hv]
    exact hu

theorem ready_unit (h : Reads read s lines fields field)
    (hfeed : NoFeed lines fields field (u :: rest))
    (hunit : s.scanUnit maxRows u rest.head? = .ok (s', skip)) : Ready skip (read ++ [u]) rest s' := by
  by_cases hstate : s.state = .quoted
  · exact ready_quoted h hstate hunit
  · rw [Scan.scanUnit, if_neg hstate] at hunit
    by_cases hcomma : u = comma
    · rw [if_pos hcomma] at hunit
      cases hunit
      subst hcomma
      refine ready_of_reads (h.pushField hstate) ?_
      intro hfields
      simp at hfields
    · rw [if_neg hcomma] at hunit
      by_cases hending : u = lineFeed ∨ u = carriageReturn
      · rw [if_pos hending, bind_eq_ok] at hunit
        obtain ⟨pushed, hpush, hunit⟩ := hunit
        cases hunit
        exact ready_ending h hfeed hstate hending hpush
      · rw [if_neg hending] at hunit
        push Not at hending
        by_cases hafter : s.state = .afterQuote
        · rw [if_pos hafter] at hunit
          cases hunit
        · rw [if_neg hafter] at hunit
          by_cases hquote : u = quote
          · rw [if_pos hquote] at hunit
            by_cases hstart : s.state = .start
            · rw [if_neg (not_not.2 hstart)] at hunit
              cases hunit
              subst hquote
              have hopen := h.field
              rw [Open, hstart] at hopen
              obtain ⟨rfl, hfield, -⟩ := hopen
              refine ready_of_reads (h.extend [quote] (by rfl) (by rfl) ?_) (noFeed_of_ne (by simp))
              refine ⟨?_, rfl⟩
              rw [hfield]
              rfl
            · rw [if_pos hstart] at hunit
              cases hunit
          · rw [if_neg hquote] at hunit
            cases hunit
            refine ready_bare h ?_ ⟨hcomma, hquote, hending.2, hending.1⟩
            cases hs : s.state with
            | start => exact .inl rfl
            | unquoted => exact .inr rfl
            | quoted => exact absurd hs hstate
            | afterQuote => exact absurd hs hafter

end

theorem scan_reads {skip : Bool} {read : Units} (hready : Ready skip read text s)
    (h : s.scan maxRows skip text = .ok s') :
    ∃ lines fields field, Reads (read ++ text) s' lines fields field := by
  induction text generalizing s skip read with
  | nil =>
    obtain ⟨skipped, rest, lines, fields, field, htext, -, hreads, -⟩ := hready
    obtain ⟨rfl, rfl⟩ := List.append_eq_nil_iff.1 htext.symm
    cases skip with
    | true =>
      cases h
      exact ⟨lines, fields, field, hreads⟩
    | false =>
      cases h
      exact ⟨lines, fields, field, hreads⟩
  | cons u text ih =>
    obtain ⟨skipped, rest, lines, fields, field, htext, hlength, hreads, hfeed⟩ := hready
    rw [← List.singleton_append, ← List.append_assoc]
    cases skip with
    | true =>
      obtain ⟨v, rfl⟩ := List.length_eq_one_iff.1 hlength
      cases htext
      rw [Scan.scan] at h
      exact ih (ready_of_reads hreads hfeed) h
    | false =>
      obtain rfl := List.length_eq_zero_iff.1 hlength
      rw [List.nil_append] at htext
      subst htext
      rw [List.append_nil] at hreads
      rw [Scan.scan, bind_eq_ok] at h
      obtain ⟨⟨next, skip'⟩, hunit, h⟩ := h
      exact ih (ready_unit hreads hfeed hunit) h

theorem pushRow_bound (h : s.pushRow maxRows = .ok s') : (s'.records.length : ℤ) ≤ maxRows + 1 := by
  simp only [Scan.pushRow, bind_eq_ok, rejectIf_eq_ok] at h
  obtain ⟨_, hbound, h⟩ := h
  cases h
  exact not_lt.1 hbound

theorem scanUnit_bound {skip : Bool} {next : Option UInt16}
    (h : s.scanUnit maxRows u next = .ok (s', skip))
    (hbound : (s.records.length : ℤ) ≤ maxRows + 1) : (s'.records.length : ℤ) ≤ maxRows + 1 := by
  rw [Scan.scanUnit] at h
  by_cases hpush : s.state ≠ .quoted ∧ u ≠ comma ∧ (u = lineFeed ∨ u = carriageReturn)
  · rw [if_neg hpush.1, if_neg hpush.2.1, if_pos hpush.2.2, bind_eq_ok] at h
    obtain ⟨pushed, hpushed, h⟩ := h
    cases h
    exact pushRow_bound hpushed
  · have hsame : s'.records = s.records := by
      split at h
      · split at h
        · split at h
          · cases h
            rfl
          · cases h
            rfl
        · cases h
          rfl
      · next hquoted =>
        split at h
        · cases h
          rfl
        · next hcomma =>
          rw [if_neg fun hending => hpush ⟨hquoted, hcomma, hending⟩] at h
          split at h
          · cases h
          · split at h
            · split at h
              · cases h
              · cases h
                rfl
            · cases h
              rfl
    rw [hsame]
    exact hbound

theorem scan_bound {skip : Bool} (h : s.scan maxRows skip text = .ok s')
    (hbound : (s.records.length : ℤ) ≤ maxRows + 1) : (s'.records.length : ℤ) ≤ maxRows + 1 := by
  induction text generalizing s skip with
  | nil =>
    cases skip with
    | true =>
      cases h
      exact hbound
    | false =>
      cases h
      exact hbound
  | cons u text ih =>
    cases skip with
    | true => exact ih h hbound
    | false =>
      rw [Scan.scan, bind_eq_ok] at h
      obtain ⟨⟨next, skip'⟩, hunit, h⟩ := h
      exact ih h (scanUnit_bound hunit hbound)

-- ===== tables

/-- Distinct headers and rows of their width. -/
structure Table (headers : List Units) (rows : List (List (Option Units))) : Prop where
  nonempty : headers ≠ []
  distinct : headers.Nodup
  sizes : ∀ h ∈ headers, h ≠ [] ∧ h.length ≤ 256
  width : ∀ row ∈ rows, row.length = headers.length

theorem mapM_rowObject_iff {headers : List Units} {records : List (List Cell)}
    {result : List (List (Units × Option Units))} :
    records.mapM (rowObject headers) = .ok result ↔ (∀ r ∈ records, r.length = headers.length)
        ∧ result = records.map fun r => headers.zip (r.map Cell.read) := by
  induction records generalizing result with
  | nil => simp [pure, Except.pure, eq_comm]
  | cons r records ih =>
    rw [mapM_cons_eq_ok]
    constructor
    · intro h
      obtain ⟨object, hobject, rest, hrest, rfl⟩ := h
      obtain ⟨hwidth, rfl⟩ := ih.1 hrest
      simp only [rowObject, bind_eq_ok, rejectIf_eq_ok, not_not] at hobject
      obtain ⟨_, hlength, hobject⟩ := hobject
      cases hobject
      refine ⟨?_, rfl⟩
      intro r' hr'
      rcases List.mem_cons.1 hr' with rfl | hr'
      · exact hlength
      · exact hwidth r' hr'
    · intro h
      obtain ⟨hwidth, rfl⟩ := h
      refine ⟨headers.zip (r.map Cell.read), ?_, _,
        ih.2 ⟨fun r' hr' => hwidth r' (List.mem_cons_of_mem _ hr'), rfl⟩, rfl⟩
      rw [rowObject, rejectIf_of_not (not_not.2 (hwidth r (List.mem_cons_self ..)))]
      rfl

theorem value_of_read {cell : Cell} {value : Units} (h : cell.read = some value) :
    cell.value = value := by
  rw [Cell.read] at h
  split at h
  · cases h
  · exact Option.some.inj h

theorem map_value_of_read {row : List Cell} {values : List Units}
    (h : row.map Cell.read = values.map some) : row.map Cell.value = values := by
  induction row generalizing values with
  | nil =>
    cases values with
    | nil => rfl
    | cons v values => cases h
  | cons cell row ih =>
    cases values with
    | nil => cases h
    | cons v values =>
      obtain ⟨hcell, hrow⟩ := List.cons.inj h
      rw [List.map_cons, value_of_read hcell, ih hrow]

theorem map_read_of_value {row : List Cell} (h : ∀ cell ∈ row, cell.value ≠ []) :
    row.map Cell.read = (row.map Cell.value).map some := by
  rw [List.map_map]
  refine List.map_congr_left fun cell hcell => ?_
  exact if_neg fun hboth => h cell hcell hboth.1

/-- The arguments that `parseCsvObjects` takes. -/
structure Acceptable (csv : Units) (maxRows : ℤ) : Prop where
  bytes : csv.byteLength ≤ maxOutputBytes
  rows : 0 ≤ maxRows ∧ maxRows ≤ maxRowsLimit

variable {headers : List Units} {rows : List (List (Option Units))} {lines : List Line} {csv : Units}

theorem linesText_ne_nil (h : lines ≠ []) : linesText lines ≠ [] := by
  cases lines with
  | nil => exact absurd rfl h
  | cons line lines =>
    intro htext
    rw [linesText, List.flatMap_cons] at htext
    have hending := (List.append_eq_nil_iff.1 (List.append_eq_nil_iff.1 htext).1).2
    cases hcase : line.ending with
    | lf =>
      rw [hcase] at hending
      cases hending
    | cr =>
      rw [hcase] at hending
      cases hending
    | crlf =>
      rw [hcase] at hending
      cases hending

theorem parseCsvObjects_of_renders (htable : Table headers rows)
    (hrenders : Renders (headers.map some :: rows) lines) (hrows : (rows.length : ℤ) ≤ maxRows)
    (haccept : Acceptable (linesText lines) maxRows) :
    parseCsvObjects (linesText lines) maxRows = .ok (rows.map headers.zip) := by
  obtain ⟨records, hrecords, hscan⟩ := scan_lines maxRows hrenders [] (by
    rw [List.length_nil, Nat.zero_add, List.length_cons]
    omega)
  have hlines : lines ≠ [] := by
    intro hnil
    have hall := hrenders.records
    rw [hnil] at hall
    cases hall
  have hguard : ¬ (maxOutputBytes < (linesText lines).byteLength ∨ maxRows < 0
      ∨ maxRowsLimit < maxRows) := by
    have hbytes := haccept.bytes
    have hbounds := haccept.rows
    omega
  cases records with
  | nil => cases hrecords
  | cons header records =>
    rw [List.map_cons] at hrecords
    obtain ⟨hheader, hbody⟩ := List.cons.inj hrecords
    have hvalues := map_value_of_read hheader
    have hheaders : ¬ ((∃ h ∈ headers, h = [] ∨ 256 < h.length) ∨ ¬ headers.Nodup) := by
      intro hbad
      rcases hbad with ⟨h, hin, hbad⟩ | hbad
      · obtain ⟨hne, hlength⟩ := htable.sizes h hin
        rcases hbad with rfl | hlong
        · exact hne rfl
        · omega
      · exact hbad htable.distinct
    rw [parseCsvObjects, rejectIf_of_not hguard, ok_bind, if_neg (linesText_ne_nil hlines)]
    rw [show Scan.init = atField [] [] from rfl, hscan]
    show (rejectIf ((∃ h ∈ header.map Cell.value, h = [] ∨ 256 < h.length)
        ∨ ¬ (header.map Cell.value).Nodup) .postgresCsvInvalid
        "PostgreSQL CSV headers are invalid or duplicated."
      >>= fun _ => records.mapM (rowObject (header.map Cell.value))) = _
    rw [hvalues, rejectIf_of_not hheaders, ok_bind, mapM_rowObject_iff]
    constructor
    · intro r hr
      have hwidth := htable.width (r.map Cell.read) (by
        rw [← hbody]
        exact List.mem_map_of_mem hr)
      rwa [List.length_map] at hwidth
    · rw [← hbody, List.map_map]
      rfl

/-- The text lacks at most the ending of its last line. -/
def Ended (csv : Units) (lines : List Line) : Prop :=
  csv = linesText lines ∨ ∃ first last, lines = first ++ [last] ∧ csv = linesText first ++ last.text

theorem ready_init : Ready false [] csv Scan.init :=
  ⟨[], csv, [], [], [], rfl, rfl, ⟨rfl, ⟨.nil, .nil⟩, .nil, ⟨rfl, rfl, rfl⟩⟩, by
    intro _ _ hlast
    obtain ⟨line, hline, -⟩ := hlast
    cases hline⟩

theorem exists_lines {s s' : Scan} (hscan : Scan.init.scan maxRows false csv = .ok s)
    (hquoted : s.state ≠ .quoted) (hpush : s.pushLast maxRows = .ok s') :
    ∃ lines, Renders (s'.records.map (·.map Cell.read)) lines ∧ Ended csv lines := by
  obtain ⟨lines, fields, field, hreads⟩ := scan_reads ready_init hscan
  rw [List.nil_append] at hreads
  rw [Scan.pushLast] at hpush
  split at hpush
  · have hpushed := hreads.pushRow hquoted hpush .crlf (fun _ _ _ => by decide)
    refine ⟨_, hpushed.renders, .inr ⟨lines, _, rfl, ?_⟩⟩
    exact hreads.text
  · next hdone =>
    push Not at hdone
    cases hpush
    refine ⟨lines, hreads.renders, .inl ?_⟩
    have hfields : fields = [] := by
      have hrow := hreads.row
      rw [hdone.2] at hrow
      cases hrow
      rfl
    have hfield : field = [] := by
      have hopen := hreads.field
      rw [Open, hdone.1] at hopen
      exact hopen.1
    rw [hreads.text, hfields, hfield]
    simp

theorem renders_of_parseCsvObjects {result : List (List (Units × Option Units))}
    (h : parseCsvObjects csv maxRows = .ok result) :
    csv = [] ∧ result = [] ∨ ∃ headers rows lines, Table headers rows
    ∧ Renders (headers.map some :: rows) lines ∧ (rows.length : ℤ) ≤ maxRows
    ∧ result = rows.map headers.zip ∧ Ended csv lines := by
  rw [parseCsvObjects, bind_eq_ok] at h
  obtain ⟨_, hguard, h⟩ := h
  rw [rejectIf_eq_ok] at hguard
  push Not at hguard
  by_cases hempty : csv = []
  · rw [if_pos hempty] at h
    cases h
    exact .inl ⟨hempty, rfl⟩
  · rw [if_neg hempty] at h
    simp only [bind_eq_ok, rejectIf_eq_ok] at h
    obtain ⟨s, hscan, _, hquoted, s', hpush, h⟩ := h
    obtain ⟨lines, hrenders, hended⟩ := exists_lines hscan hquoted hpush
    have hbound : (s'.records.length : ℤ) ≤ maxRows + 1 := by
      rw [Scan.pushLast] at hpush
      split at hpush
      · exact pushRow_bound hpush
      · cases hpush
        exact scan_bound hscan (by
          show ((0 : ℕ) : ℤ) ≤ maxRows + 1
          omega)
    cases hrecords : s'.records with
    | nil =>
      rw [hrecords] at hrenders
      have hnone : lines = [] := by
        cases lines with
        | nil => rfl
        | cons line lines => cases hrenders.records
      rcases hended with hended | ⟨first, last, hlines, -⟩
      · rw [hnone] at hended
        exact absurd hended hempty
      · rw [hnone] at hlines
        simp at hlines
    | cons header records =>
      rw [hrecords] at h hrenders hbound
      simp only [bind_eq_ok, rejectIf_eq_ok] at h
      obtain ⟨_, hheaders, h⟩ := h
      push Not at hheaders
      obtain ⟨hsizes, hdistinct⟩ := hheaders
      obtain ⟨hwidth, rfl⟩ := mapM_rowObject_iff.1 h
      have hread : header.map Cell.read = (header.map Cell.value).map some :=
        map_read_of_value fun cell hcell =>
          (hsizes cell.value (List.mem_map_of_mem hcell)).1
      rw [List.map_cons, hread] at hrenders
      refine .inr ⟨header.map Cell.value, records.map (·.map Cell.read), lines,
        ⟨?_, hdistinct, hsizes, ?_⟩, hrenders, ?_, ?_, hended⟩
      · intro hnil
        have hne : header.map Cell.read ≠ [] := by
          obtain ⟨text, texts, hline, -⟩ := List.forall₂_cons_left_iff.1 hrenders.records
          rw [hread]
          exact hline.1
        rw [List.map_eq_nil_iff] at hnil
        rw [hnil] at hne
        exact hne rfl
      · intro row hrow
        obtain ⟨r, hr, rfl⟩ := List.mem_map.1 hrow
        rw [List.length_map]
        exact hwidth r hr
      · rw [List.length_cons] at hbound
        rw [List.length_map]
        omega
      · rw [List.map_map]
        rfl

/-- A rendered table is read back, and what is accepted, the empty text apart,
is a rendered table. -/
theorem parseCsvObjects_exact (maxRows : ℤ) :
    (∀ (headers : List Units) (rows : List (List (Option Units))) (lines : List Line),
      Table headers rows → Renders (headers.map some :: rows) lines →
      (rows.length : ℤ) ≤ maxRows → Acceptable (linesText lines) maxRows →
        parseCsvObjects (linesText lines) maxRows = .ok (rows.map headers.zip))
    ∧ ∀ (csv : Units) (result : List (List (Units × Option Units))),
      parseCsvObjects csv maxRows = .ok result →
        csv = [] ∧ result = [] ∨ ∃ headers rows lines, Table headers rows
          ∧ Renders (headers.map some :: rows) lines ∧ (rows.length : ℤ) ≤ maxRows
          ∧ result = rows.map headers.zip ∧ Ended csv lines :=
  ⟨fun _ _ _ => parseCsvObjects_of_renders, fun _ _ => renders_of_parseCsvObjects⟩

-- ===== samples

def sampleHeaders : List Units :=
  [[97], [98]]

/-- `NULL` and the empty string. -/
def sampleRows : List (List (Option Units)) :=
  [[none, some []]]

/-- `a,"b"` and `,""`. -/
def sampleLines : List Line :=
  [⟨[97, comma, quote, 98, quote], .cr⟩, ⟨[comma, quote, quote], .crlf⟩]

theorem table_sample : Table sampleHeaders sampleRows :=
  ⟨by decide, by decide, by decide, by decide⟩

theorem renders_sample : Renders (sampleHeaders.map some :: sampleRows) sampleLines := by
  refine ⟨.cons ⟨by decide, [[97], [quote, 98, quote]], ?_, rfl⟩
    (.cons ⟨by decide, [[], [quote, quote]], ?_, rfl⟩ .nil), ?_⟩
  · exact .cons (.bare (by decide) (by decide)) (.cons (.quoted [98]) .nil)
  · exact .cons .null (.cons (.quoted []) .nil)
  · refine List.isChain_pair.2 ?_
    unfold Apart
    decide

/-- A row with a missing and an empty field. -/
theorem parseCsvObjects_sample :
    parseCsvObjects (linesText sampleLines) 1 = .ok [[([97], none), ([98], some [])]] :=
  (parseCsvObjects_exact 1).1 sampleHeaders sampleRows sampleLines table_sample renders_sample
    (by decide) ⟨by decide, by decide⟩

set_option synthInstance.maxSize 256 in
/-- A `NULL` row that ends in LF is lost after a line that ends in CR; and a header
record without headers is refused. -/
theorem parseCsvObjects_ambiguous : parseCsvObjects (linesText [⟨[97], .cr⟩, ⟨[], .lf⟩]) 1 = .ok []
    ∧ parseCsvObjects (linesText [⟨[], .lf⟩]) 1
      = fail .postgresCsvInvalid "PostgreSQL CSV headers are invalid or duplicated." := by
  decide

end OperatorRuntime.Postgres
