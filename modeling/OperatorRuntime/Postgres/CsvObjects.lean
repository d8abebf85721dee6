/-
`parseCsvObjects` of `capabilities/postgres.ts`. The scanner looks one code unit
ahead; where it moves its index over that unit, the next round skips it. A row
object is the list of its properties in the order they are assigned.
-/
import OperatorRuntime.CodeUnits
import OperatorRuntime.Errors

namespace OperatorRuntime.Postgres

def maxOutputBytes : Nat := 2 * 1024 * 1024

def maxRowsLimit : Int := 500

-- ===== characters

def quote : UInt16 := 34

def comma : UInt16 := 44

def lineFeed : UInt16 := 10

def carriageReturn : UInt16 := 13

-- ===== scanner

structure Cell where
  value : Units
  quoted : Bool
deriving DecidableEq

/-- `null` for an unquoted empty field. -/
def Cell.read (cell : Cell) : Option Units :=
  if cell.value = [] ∧ cell.quoted = false then none else some cell.value

inductive CsvState
  | start
  | unquoted
  | quoted
  | afterQuote
deriving DecidableEq

structure Scan where
  records : List (List Cell)
  row : List Cell
  field : Units
  quoted : Bool
  state : CsvState

namespace Scan

def init : Scan where
  records := []
  row := []
  field := []
  quoted := false
  state := .start

def pushField (s : Scan) : Scan :=
  { s with row := s.row ++ [⟨s.field, s.quoted⟩], field := [], quoted := false, state := .start }

def pushRow (maxRows : Int) (s : Scan) : Result Scan := do
  let s := s.pushField
  let records := s.records ++ [s.row]
  rejectIf (maxRows + 1 < records.length) .postgresRowLimitExceeded
    "PostgreSQL returned more rows than the configured bound."
  return { s with records, row := [] }

/-- One round of the loop: the state after the code unit, and whether the index
moves over the next one as well. -/
def scanUnit (maxRows : Int) (s : Scan) (char : UInt16) (next : Option UInt16) :
    Result (Scan × Bool) :=
  if s.state = .quoted then
    if char = quote then
      if next = some quote then .ok ({ s with field := s.field ++ [quote] }, true)
      else .ok ({ s with state := .afterQuote }, false)
    else .ok ({ s with field := s.field ++ [char] }, false)
  else if char = comma then .ok (s.pushField, false)
  else if char = lineFeed ∨ char = carriageReturn then do
    let pushed ← s.pushRow maxRows
    return (pushed, char = carriageReturn ∧ next = some lineFeed)
  else if s.state = .afterQuote then
    fail .postgresCsvInvalid "Unexpected data after a closed PostgreSQL CSV quoted field."
  else if char = quote then
    if s.state ≠ .start then
      fail .postgresCsvInvalid "Unexpected quote inside an unquoted PostgreSQL CSV field."
    else .ok ({ s with state := .quoted, quoted := true }, false)
  else .ok ({ s with field := s.field ++ [char], state := .unquoted }, false)

/-- The loop over the code units; the flag is set where the index has moved over
the first of them. -/
def scan (maxRows : Int) : Bool → Scan → Units → Result Scan
  | _, s, [] => .ok s
  | true, s, _ :: rest => scan maxRows false s rest
  | false, s, char :: rest => do
    let next ← s.scanUnit maxRows char rest.head?
    scan maxRows next.2 next.1 rest

/-- A last record without an ending. -/
def pushLast (maxRows : Int) (s : Scan) : Result Scan :=
  if s.state ≠ .start ∨ s.row ≠ [] then s.pushRow maxRows else .ok s

end Scan

-- ===== objects

/-- `{ [header]: value }` of a record of the right width. -/
def rowObject (headers : List Units) (record : List Cell) :
    Result (List (Units × Option Units)) := do
  rejectIf (record.length ≠ headers.length) .postgresCsvInvalid
    "PostgreSQL CSV row width does not match headers."
  return headers.zip (record.map Cell.read)

def parseCsvObjects (csv : Units) (maxRows : Int) :
    Result (List (List (Units × Option Units))) := do
  rejectIf (maxOutputBytes < csv.byteLength ∨ maxRows < 0 ∨ maxRowsLimit < maxRows)
    .postgresCsvInvalid "PostgreSQL CSV parse input or row budget is invalid."
  if csv = [] then return []
  else do
    let s ← Scan.init.scan maxRows false csv
    rejectIf (s.state = .quoted) .postgresCsvInvalid
      "PostgreSQL CSV output ended inside a quoted field."
    let s ← s.pushLast maxRows
    match s.records with
    | [] => return []
    | header :: records => do
      let headers := header.map Cell.value
      rejectIf ((∃ h ∈ headers, h = [] ∨ 256 < h.length) ∨ ¬ headers.Nodup) .postgresCsvInvalid
        "PostgreSQL CSV headers are invalid or duplicated."
      records.mapM (rowObject headers)

end OperatorRuntime.Postgres
