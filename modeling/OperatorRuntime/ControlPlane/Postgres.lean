/-
`PostgresControlPlaneStore` of `core/control-plane-store.ts`: one table
row per (namespace, key), live or deleted.

# The database

A transaction runs alone (advisory and row locks are left out) and is
rolled back when its work throws (`withTransaction`). A `JSONB` column
gives back the value stored in it, a `TIMESTAMPTZ` column a `Date` with
the instant stored in it. The trigger that fences writers of an older
schema never fires on this store's own writes and is left out.
-/
import OperatorRuntime.ControlPlane.Record
import OperatorRuntime.Lib.Lookup

namespace OperatorRuntime.ControlPlane

open Lib

/-- A row of `mecord_control_plane`. -/
structure Row where
  «namespace» : String
  recordKey : String
  generation : Int
  valueDigest : String
  valueJson : Json
  updatedAt : Instant
  expiresAt : Option Instant
  isDeleted : Bool

/-- `PRIMARY KEY(namespace, record_key)`. -/
structure PrimaryKey where
  «namespace» : String
  recordKey : String
deriving DecidableEq

def Row.pk (row : Row) : PrimaryKey :=
  ⟨row.namespace, row.recordKey⟩

structure Table where
  rows : List Row
  primaryKey : (rows.map (·.pk)).Nodup

def Table.empty : Table := ⟨[], List.nodup_nil⟩

/-- The platform: SHA-256, `localeCompare`, the collation of the text
columns, and `JSON.parse` for a driver that returns `JSONB` as text. -/
structure PgEnv where
  sha256 : Hash
  localeCompare : Collation
  columnLe : String → String → Bool
  jsonParse : String → Result Json

-- ===== statements

/-- `SELECT … WHERE namespace=$1 AND record_key=$2`. -/
def Table.select (t : Table) (ns key : String) : Option Row :=
  t.rows.find? fun row => row.pk == ⟨ns, key⟩

/-- The row written over the one with its primary key, or added. -/
def upsertRow (row : Row) (rows : List Row) : List Row :=
  if rows.any fun r => r.pk == row.pk then
    updateFirst (fun r => r.pk == row.pk) (fun _ => row) rows
  else rows ++ [row]

theorem nodup_upsertRow {row : Row} {rows : List Row} (h : (rows.map (·.pk)).Nodup) :
    ((upsertRow row rows).map (·.pk)).Nodup := by
  rw [upsertRow]
  split
  · rwa [map_updateFirst]
    intro r hr
    exact (beq_iff_eq.1 hr).symm
  · next hnone =>
    refine nodup_key_append h ?_
    intro r hr hkey
    exact hnone (List.any_eq_true.2 ⟨r, hr, by simpa using hkey⟩)

/-- `INSERT … ON CONFLICT(namespace, record_key) DO UPDATE`. -/
def Table.upsert (t : Table) (row : Row) : Table :=
  ⟨upsertRow row t.rows, nodup_upsertRow t.primaryKey⟩

/-- `ORDER BY namespace, record_key`. -/
def rowLe (env : PgEnv) (a b : Row) : Bool :=
  if a.namespace = b.namespace then env.columnLe a.recordKey b.recordKey
  else env.columnLe a.namespace b.namespace

def Table.ordered (env : PgEnv) (t : Table) : List Row :=
  t.rows.insertionSort fun a b => rowLe env a b = true

/-- `BEGIN`, the work, and `COMMIT` or `ROLLBACK`. -/
def withTransaction {α : Type} (work : Table → Result (α × Table))
    (t : Table) : Result α × Table :=
  match work t with
  | .ok (a, t') => (.ok a, t')
  | .error e => (.error e, t)

-- ===== values

/-- `Date.parse(String(date))`: the text of a `Date` has no milliseconds. -/
def parseDateString (date : Instant) : Int :=
  date.val - date.val % 1000

def sha (value label : String) : Result Hex64 :=
  match hex64? value with
  | some digest => .ok digest
  | none => invalid s!"{label} must be SHA-256."

def storedGeneration (input : Int) : Result Nat :=
  match (Number.int input).safeFrom? 1 with
  | some generation => .ok generation
  | none => corrupt "Postgres control-plane generation is invalid."

/-- `typeof row.value_json === 'string' ? JSON.parse(…) : row.value_json`. -/
def jsonColumn (env : PgEnv) : Json → Result Json
  | .str text => env.jsonParse text
  | value => .ok value

def rowToRecord (env : PgEnv) (row : Row) : Result ControlPlaneRecord := do
  let json ← jsonColumn env row.valueJson
  let value ← objectValue json
  let ns ← id row.namespace "namespace"
  let key ← id row.recordKey "key"
  let generation ← integer (.int row.generation) "generation"
  let valueDigest ← sha row.valueDigest "valueDigest"
  rejectIf (valueDigest ≠ digest env.sha256 (.obj value))
    .controlPlaneStoreCorrupt "Record value digest mismatch."
  .ok { «namespace» := ns, key, generation, valueDigest, value,
        updatedAt := row.updatedAt, expiresAt := row.expiresAt }

def ControlPlaneRecord.toRow (r : ControlPlaneRecord) : Row :=
  { «namespace» := r.namespace.val, recordKey := r.key.val,
    generation := r.generation, valueDigest := r.valueDigest.val,
    valueJson := .obj r.value, updatedAt := r.updatedAt,
    expiresAt := r.expiresAt, isDeleted := false }

def deletedRow (sha256 : Hash) (ns key : String) (generation : Int) (at' : Instant) : Row :=
  { «namespace» := ns, recordKey := key, generation,
    valueDigest := (digest sha256 (.obj [])).val, valueJson := .obj [],
    updatedAt := at', expiresAt := none, isDeleted := true }

-- ===== queries

def pgGet (env : PgEnv) (ns key : String) (t : Table) :
    Result (Option ControlPlaneRecord) := do
  let ns ← id ns "namespace"
  let key ← id key "key"
  match t.select ns.val key.val with
  | none => .ok none
  | some row =>
    if row.isDeleted then .ok none else (rowToRecord env row).map some

def pgList (env : PgEnv) (ns : String) (t : Table) :
    Result (List ControlPlaneRecord) := do
  let ns ← id ns "namespace"
  ((t.ordered env).filter fun row => row.namespace = ns.val ∧ !row.isDeleted).mapM
    (rowToRecord env)

-- ===== transact

/-- `row ? storedGeneration(row.generation) : 0`. -/
def rowGeneration : Option Row → Result Nat
  | none => .ok 0
  | some row => storedGeneration row.generation

/-- `row && row.is_deleted !== true && (!row.expires_at || …)`. -/
def rowLive (now : Instant) (row : Option Row) : Bool :=
  row.any fun row => !row.isDeleted && row.expiresAt.all fun at' => now.val < parseDateString at'

/-- `expected === null ? live : (!live || prior !== expected)`. -/
def mismatches (expected : Option Nat) (live : Bool) (prior : Nat) : Bool :=
  match expected with
  | none => live
  | some expected => !live || prior != expected

def pgWrite (sha256 : Hash) (now : Instant) (m : NormalizedMutation)
    (row : Option Row) (prior : Nat)
    (acc : List ControlPlaneRecord × Table) :
    Result (List ControlPlaneRecord × Table) :=
  match m.value with
  | none =>
    match row with
    | none => .ok acc
    | some row =>
      if row.isDeleted then .ok acc
      else .ok (acc.1, acc.2.upsert (deletedRow sha256 m.namespace.val
        m.key.val row.generation now))
  | some value => do
    rejectIf (maxSafeInteger ≤ prior) .controlPlaneStoreInvalid
      "Control-plane record generation exhausted."
    let record := makeRecord sha256 m.namespace m.key (prior + 1) value now
      m.expiresAt
    .ok (acc.1 ++ [record], acc.2.upsert record.toRow)

/-- The body of the loop of `transact`. -/
def pgMutation (env : PgEnv) (now : Instant)
    (acc : List ControlPlaneRecord × Table) (m : NormalizedMutation) :
    Result (List ControlPlaneRecord × Table) := do
  let row := acc.2.select m.namespace.val m.key.val
  let prior ← rowGeneration row
  if mismatches m.expectedGeneration (rowLive now row) prior then
    failRetryable .controlPlaneCasMismatch "Record generation changed."
  else pgWrite env.sha256 now m row prior acc

def pgTransact (env : PgEnv) (mutations : List ControlPlaneMutation) (now : IsoText) (t : Table) :
    Result (List ControlPlaneRecord) × Table :=
  withTransaction (fun t => do
    checkBatch mutations
    let now ← iso now "now"
    let normalized ← mutations.mapM normalizeMutation
    let _ ← addDistinct .controlPlaneStoreInvalid
      "A transaction cannot mutate the same record twice." []
      (normalized.map (·.rk))
    normalized.foldlM (pgMutation env now) ([], t)) t

-- === snapshot and restore

/-- Whether a snapshot keeps only the generation of a row. -/
def rowFenced (now : Instant) (row : Row) : Bool :=
  row.isDeleted || row.expiresAt.any fun at' => parseDateString at' ≤ now.val

def rowFence (row : Row) : Result ControlPlaneGenerationFence := do
  let ns ← id row.namespace "namespace"
  let key ← id row.recordKey "key"
  let generation ← storedGeneration row.generation
  .ok { «namespace» := ns, key, generation }

/-- The body of the loop of `snapshot`. -/
def pgSnapshotRow (env : PgEnv) (now : Instant)
    (acc : List ControlPlaneRecord × List ControlPlaneGenerationFence)
    (row : Row) : Result
      (List ControlPlaneRecord × List ControlPlaneGenerationFence) :=
  if rowFenced now row then do
    let fence ← rowFence row
    .ok (acc.1, acc.2 ++ [fence])
  else do
    let record ← rowToRecord env row
    .ok (acc.1 ++ [record], acc.2)

def pgSnapshot (env : PgEnv) (now : IsoText) (t : Table) :
    Result ControlPlaneSnapshot := do
  let now ← iso now "now"
  let (records, tombstones) ←
    (t.ordered env).foldlM (pgSnapshotRow env now) ([], [])
  .ok { createdAt := now, records, tombstones := some tombstones,
        digest := digest env.sha256 (snapshotBase now records tombstones) }

/-- `#restoreUnchecked`. The inserted keys are distinct, so no insert
meets a row. -/
def pgRestoreUnchecked (env : PgEnv) (input : ControlPlaneSnapshot) (t : Table) :
    Result Unit × Table :=
  withTransaction (fun t => do
    let (records, tombstones) ←
      normalizeSnapshot env.sha256 env.localeCompare input
    rejectIf (0 < t.rows.length) .controlPlaneRestoreConflict
      "Restore refuses to overwrite live control-plane state."
    let t := records.foldl (fun t record => t.upsert record.toRow) t
    let t := tombstones.foldl (fun t fence => t.upsert
      (deletedRow env.sha256 fence.namespace.val fence.key.val fence.generation input.createdAt)) t
    .ok ((), t)) t

end OperatorRuntime.ControlPlane
