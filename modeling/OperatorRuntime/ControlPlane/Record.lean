/-
`core/control-plane-store.ts`, what both stores share: records and
generation fences, the mutations and snapshots callers pass, the field
validators and the digests.

# Reading the model

Stored identifiers, digests and times carry their format in their types.
A caller's times are texts, given by how they read: the instant whose
`toISOString` text they are, or `none` for any other text. `value: null`
is `Json.null`.
-/
import Mathlib.Data.List.Sort
import OperatorRuntime.Lib.Cells
import OperatorRuntime.StateFile

namespace OperatorRuntime.ControlPlane

-- ===== the texts

/-- `[A-Za-z0-9._:@/+=-]`. -/
def isIdChar (c : Char) : Bool :=
  isAlnum c || c == '.' || c == '_' || c == ':' || c == '@' || c == '/'
    || c == '+' || c == '=' || c == '-'

/-- `ID`, one to 256 such characters. -/
def isId (text : String) : Bool :=
  1 ≤ text.toList.length && text.toList.length ≤ 256 && text.toList.all isIdChar

/-- A namespace or a key. -/
def Id := { text : String // isId text = true }
deriving DecidableEq

/-- A caller's time text, as `iso` reads it. -/
abbrev IsoText := Option Instant

-- ===== the records

structure ControlPlaneRecord where
  «namespace» : Id
  key : Id
  generation : Nat
  valueDigest : Hex64
  value : JsonObject
  updatedAt : Instant
  expiresAt : Option Instant

structure ControlPlaneGenerationFence where
  «namespace» : Id
  key : Id
  generation : Nat
deriving DecidableEq

/-- `ControlPlaneSnapshot`; a legacy snapshot has no `tombstones`. -/
structure ControlPlaneSnapshot where
  createdAt : Instant
  records : List ControlPlaneRecord
  tombstones : Option (List ControlPlaneGenerationFence)
  digest : Hex64

structure ControlPlaneMutation where
  «namespace» : String
  key : String
  expectedGeneration : Option Number
  value : Json
  expiresAt : Option IsoText := none

/-- What `normalizeMutation` returns; `value` is `none` for a delete. -/
structure NormalizedMutation where
  «namespace» : Id
  key : Id
  expectedGeneration : Option Nat
  value : Option JsonObject
  expiresAt : Option Instant

def recordKey (ns key : Id) : String :=
  ns.val ++ "\x00" ++ key.val

def ControlPlaneRecord.rk (r : ControlPlaneRecord) : String :=
  recordKey r.namespace r.key

def ControlPlaneGenerationFence.rk (f : ControlPlaneGenerationFence) : String :=
  recordKey f.namespace f.key

def NormalizedMutation.rk (m : NormalizedMutation) : String :=
  recordKey m.namespace m.key

-- ===== validators

variable {α : Type}

def invalid (message : String) : Result α :=
  fail .controlPlaneStoreInvalid message

def corrupt (message : String) : Result α :=
  fail .controlPlaneStoreCorrupt message

def id (value label : String) : Result Id :=
  if h : isId value = true then .ok ⟨value, h⟩
  else invalid s!"{label} is invalid."

def iso (value : IsoText) (label : String) : Result Instant :=
  match value with
  | some at' => .ok at'
  | none => invalid s!"{label} must be canonical ISO."

/-- `integer(value, 1, Number.MAX_SAFE_INTEGER, label)`. -/
def integer (value : Number) (label : String) : Result Nat :=
  match value.safeFrom? 1 with
  | some n => .ok n
  | none => invalid s!"{label} is invalid."

def maxValueBytes : Nat := 32 * 1024 * 1024

def objectValue (input : Json) : Result JsonObject :=
  match input with
  | .obj fields =>
    if maxValueBytes < (Json.canonicalJson (.obj fields)).utf8ByteSize then
      invalid "Control-plane value exceeds 32 MiB."
    else .ok fields
  | _ => invalid "Control-plane value must be an object."

-- ===== digests

/-- `crypto.createHash('sha256')` over the UTF-8 bytes of a text. -/
abbrev Hash := String → Hex64

def digest (sha256 : Hash) (value : Json) : Hex64 :=
  sha256 (Json.canonicalJson value)

def ControlPlaneRecord.toJson (r : ControlPlaneRecord) : Json :=
  .obj (([("schemaVersion", .num "1"), ("namespace", .str r.namespace.val),
      ("key", .str r.key.val), ("generation", .num (toString r.generation)),
      ("valueDigest", .str r.valueDigest.val), ("value", .obj r.value),
      ("updatedAt", .str r.updatedAt.isoText)] : List (String × Json))
    ++ r.expiresAt.toList.map fun at' => ("expiresAt", .str at'.isoText))

def ControlPlaneGenerationFence.toJson (f : ControlPlaneGenerationFence) : Json :=
  .obj [("namespace", .str f.namespace.val), ("key", .str f.key.val),
    ("generation", .num (toString f.generation))]

def snapshotBase (createdAt : Instant) (records : List ControlPlaneRecord)
    (tombstones : List ControlPlaneGenerationFence) : Json :=
  .obj [("schemaVersion", .num "1"), ("createdAt", .str createdAt.isoText),
    ("records", .arr (records.map (·.toJson))),
    ("tombstones", .arr (tombstones.map (·.toJson)))]

def makeRecord (sha256 : Hash) (ns key : Id) (generation : Nat)
    (value : JsonObject) (updatedAt : Instant) (expiresAt : Option Instant) :
    ControlPlaneRecord :=
  { «namespace» := ns, key, generation,
    valueDigest := digest sha256 (.obj value), value, updatedAt, expiresAt }

-- ===== normalisation

def normalizeRecord (sha256 : Hash) (r : ControlPlaneRecord) :
    Result ControlPlaneRecord := do
  let value ← objectValue (.obj r.value)
  let generation ← integer (.int r.generation) "generation"
  rejectIf (r.valueDigest ≠ digest sha256 (.obj value))
    .controlPlaneStoreCorrupt "Record value digest mismatch."
  .ok { r with value, generation }

/-- The map over a fence collection: `label` is its place in the input. -/
def normalizeFence (label : String) (f : ControlPlaneGenerationFence) :
    Result ControlPlaneGenerationFence := do
  let generation ← integer (.int f.generation) s!"{label}.generation"
  .ok { f with generation }

/-- `for (const item of items) { if (keys.has(rk)) throw …; keys.add(rk); }`. -/
def addDistinct (code : ErrorCode) (message : String) :
    List String → List String → Result (List String)
  | keys, [] => .ok keys
  | keys, rk :: rks =>
    if rk ∈ keys then fail code message
    else addDistinct code message (rk :: keys) rks

def mutationValue (value : Json) : Result (Option JsonObject) :=
  match value with
  | .null => .ok none
  | value => (objectValue value).map some

def normalizeMutation (m : ControlPlaneMutation) : Result NormalizedMutation := do
  let expectedGeneration ←
    m.expectedGeneration.mapM (integer · "expectedGeneration")
  let ns ← id m.namespace "namespace"
  let key ← id m.key "key"
  let value ← mutationValue m.value
  let expiresAt ← m.expiresAt.mapM (iso · "expiresAt")
  .ok { «namespace» := ns, key, expectedGeneration, value, expiresAt }

/-- `mutations.length < 1 || mutations.length > 10001`. -/
def checkBatch (mutations : List ControlPlaneMutation) : Result Unit :=
  rejectIf (mutations.length < 1 ∨ 10001 < mutations.length)
    .controlPlaneStoreInvalid "Transaction mutations are invalid."

/-- `a.localeCompare(b)`, as both stores sort with it. -/
abbrev Collation := String → String → Int

/-- `sort((a, b) => rk(a).localeCompare(rk(b)))`, a stable sort. -/
def sortByKey (localeCompare : Collation) (rk : α → String) (items : List α) : List α :=
  items.insertionSort fun a b => localeCompare (rk a) (rk b) ≤ 0

def maxItems : Nat := 1000000

def normalizeSnapshot (sha256 : Hash) (localeCompare : Collation) (input : ControlPlaneSnapshot) :
    Result (List ControlPlaneRecord × List ControlPlaneGenerationFence) :=
  match input.tombstones with
  | none => invalid "Legacy snapshot has no durable generation fences; restore requires an epoch-aware migration."
  | some fences => do
    rejectIf (maxItems < fences.length ∨ maxItems < input.records.length)
      .controlPlaneStoreInvalid "Snapshot exceeds control-plane bounds."
    let records ← input.records.mapM (normalizeRecord sha256)
    let records := sortByKey localeCompare (·.rk) records
    let tombstones ← fences.mapM (normalizeFence "snapshot.tombstone")
    let tombstones := sortByKey localeCompare (·.rk) tombstones
    let _ ← addDistinct .controlPlaneStoreInvalid
      "Snapshot contains duplicate identities or overlapping generation fences."
      [] (records.map (·.rk) ++ tombstones.map (·.rk))
    rejectIf (input.digest ≠ digest sha256 (snapshotBase input.createdAt records tombstones))
      .controlPlaneStoreInvalid "Snapshot digest mismatch."
    .ok (records, tombstones)

def expired (r : ControlPlaneRecord) (now : Instant) : Bool :=
  r.expiresAt.any fun at' => at'.val ≤ now.val

/-
What a transaction means, apart from how a store keeps it: every
(namespace, key) is a cell with a generation, a transaction compares all
the cells it names and then writes them, and an expired record is a gone
body. Both stores are compared with this meaning; they differ in when
they take a body to be gone, which is a parameter here.
-/

open Lib

/-- A record without its key and generation. -/
structure Content where
  valueDigest : Hex64
  value : JsonObject
  updatedAt : Instant
  expiresAt : Option Instant

/-- Expired at an instant. -/
def Content.gone (now : Instant) (c : Content) : Bool :=
  c.expiresAt.any fun at' => at'.val ≤ now.val

/-- What every key, named by its `recordKey`, stands for. -/
abbrev Cells := String → Cell Content

def ControlPlaneRecord.content (r : ControlPlaneRecord) : Content :=
  { valueDigest := r.valueDigest, value := r.value, updatedAt := r.updatedAt,
    expiresAt := r.expiresAt }

def NormalizedMutation.content (sha256 : Hash) (now : Instant)
    (m : NormalizedMutation) : Option Content :=
  m.value.map fun value =>
    { valueDigest := digest sha256 (.obj value), value, updatedAt := now,
      expiresAt := m.expiresAt }

/-- The compare of a mutation holds of what the cell shows. -/
def NormalizedMutation.admits (m : NormalizedMutation) (shown : Option Nat) : Bool :=
  match m.expectedGeneration with
  | none => shown.isNone
  | some expected => shown == some expected

/-- The compare of a mutation, with the keys compared before. -/
def checkCell (gone : Content → Bool) (cells : Cells) (seen : List String)
    (m : NormalizedMutation) : Result (List String) := do
  rejectIf (m.rk ∈ seen) .controlPlaneStoreInvalid
    "A transaction cannot mutate the same record twice."
  if m.admits ((cells m.rk).shows gone) then .ok (m.rk :: seen)
  else
    match m.expectedGeneration with
    | none => fail .controlPlaneCasMismatch "Record already exists."
    | some _ =>
      failRetryable .controlPlaneCasMismatch "Record generation changed."

def writeCell (sha256 : Hash) (now : Instant)
    (acc : Cells × List ControlPlaneRecord) (m : NormalizedMutation) :
    Result (Cells × List ControlPlaneRecord) :=
  let cell := acc.1 m.rk
  let cells := Function.update acc.1 m.rk (cell.put (m.content sha256 now))
  match m.value with
  | none => .ok (cells, acc.2)
  | some value => do
    rejectIf (maxSafeInteger ≤ cell.generation) .controlPlaneStoreInvalid
      "Control-plane record generation exhausted."
    .ok (cells, acc.2 ++ [makeRecord sha256 m.namespace m.key
      (cell.generation + 1) value now m.expiresAt])

/-- A transaction: compare every cell, then write every cell. -/
def commit (sha256 : Hash) (gone : Content → Bool)
    (mutations : List NormalizedMutation) (now : Instant) (cells : Cells) :
    Result (Cells × List ControlPlaneRecord) := do
  let _ ← mutations.foldlM (checkCell gone cells) []
  mutations.foldlM (writeCell sha256 now) (cells, [])

def cellAt (records : List ControlPlaneRecord)
    (fences : List ControlPlaneGenerationFence) : Cells := fun rk =>
  match records.find? fun r => r.rk == rk with
  | some r => .live r.generation r.content
  | none =>
    match fences.find? fun f => f.rk == rk with
    | some f => .fence f.generation
    | none => .free

end OperatorRuntime.ControlPlane
