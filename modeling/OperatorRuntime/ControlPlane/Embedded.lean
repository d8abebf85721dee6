/-
`EmbeddedControlPlaneStore` of `core/control-plane-store.ts`: one file of
records and generation fences.

# The file

Every call runs under the file lock, so calls happen one after the other;
a call is a program over the file's state that may throw, and what it
wrote before it threw stays (`FileM`). The version field is left out: it
is 2 in every file this code writes. The JSON text is not modelled, only
whether it is within `maxBytes` (`fits`).

# The maps

`index` is only read by key, so it is a function. `tombstones` is
iterated at the end, so it is the list of its values in insertion order;
each value carries its own key.
-/
import OperatorRuntime.ControlPlane.Record
import OperatorRuntime.StateFile
import OperatorRuntime.Lib.Keyed

namespace OperatorRuntime.ControlPlane

open Lib

structure EmbeddedState where
  records : List ControlPlaneRecord
  tombstones : List ControlPlaneGenerationFence

/-- What `#read` returns when there is no file. -/
def EmbeddedState.empty : EmbeddedState :=
  { records := [], tombstones := [] }

/-- The platform: SHA-256, `String.prototype.localeCompare`, and whether
the serialized state is within 256 MiB. -/
structure StoreEnv where
  sha256 : Hash
  localeCompare : Collation
  fits : EmbeddedState → Bool

/-- A call on the file: it reads and replaces the state, and may throw. -/
abbrev FileM := ExceptT OperatorError (StateM EmbeddedState)

-- ===== read and write

def normalizeState (env : StoreEnv) (s : EmbeddedState) : Result EmbeddedState := do
  rejectIf (maxItems < s.records.length) .controlPlaneStoreCorrupt
    "State shape is invalid."
  let records ← s.records.mapM (normalizeRecord env.sha256)
  let keys ← addDistinct .controlPlaneStoreCorrupt
    "Duplicate control-plane record." [] (records.map (·.rk))
  rejectIf (maxItems < s.tombstones.length) .controlPlaneStoreCorrupt
    "Control-plane generation fence collection is invalid."
  let tombstones ← s.tombstones.mapM (normalizeFence "tombstone")
  let _ ← addDistinct .controlPlaneStoreCorrupt
    "Generation fence duplicates a live record or another fence."
    keys (tombstones.map (·.rk))
  .ok { records, tombstones }

def read (env : StoreEnv) : FileM EmbeddedState := do
  normalizeState env (← get)

/-- What a write throws that fails after the state passed its checks. -/
def writeFailed : OperatorError :=
  { code := .controlPlaneStoreCorrupt,
    message := "Committed state size did not match the serialized state." }

/-- `#write`. The file is replaced by a rename, and the checks and syncs
after the rename can still throw; so can the lock, when it was lost in the
meantime. The new state is then in the file of a call that throws. -/
def write (env : StoreEnv) (s : EmbeddedState) (disk : Disk := .durable) : FileM Unit := do
  let normalized ← normalizeState env s
  rejectIf (env.fits normalized = false) .controlPlaneStoreCorrupt
    "Serialized state exceeds the bounded size."
  match disk with
  | .durable => set normalized
  | .unconfirmed => do
    set normalized
    throw writeFailed
  | .lost => throw writeFailed

-- ===== queries

/-- The callback of `get`'s `find`: the key is only validated for a record
of the namespace. -/
def matchesKey (ns key : String) (item : ControlPlaneRecord) : Result Bool := do
  let ns ← id ns "namespace"
  if item.namespace = ns then
    (id key "key").map fun key => decide (item.key = key)
  else .ok false

/-- `state.records.find(…)`. -/
def findRecord (ns key : String) : List ControlPlaneRecord →
    Result (Option ControlPlaneRecord)
  | [] => .ok none
  | item :: items => do
    let found ← matchesKey ns key item
    if found then .ok (some item) else findRecord ns key items

def get (env : StoreEnv) (ns key : String) : FileM (Option ControlPlaneRecord) := do
  let state ← read env
  findRecord ns key state.records

def list (env : StoreEnv) (ns : String) : FileM (List ControlPlaneRecord) := do
  let ns ← id ns "namespace"
  let state ← read env
  return sortByKey env.localeCompare (fun item => item.key.val)
    (state.records.filter fun item => item.namespace = ns)

-- ===== transact

/-- `new Map(state.records.map((item, i) => [recordKey(…), i]))`. -/
def indexOf (records : List ControlPlaneRecord) : String → Option Nat :=
  records.zipIdx.foldl
    (fun index item => Function.update index item.1.rk (some item.2))
    fun _ => none

/-- The body of the first loop of `transact`; the answer is `seen`. -/
def checkMutation (records : List ControlPlaneRecord)
    (index : String → Option Nat) (now : Instant) (seen : List String)
    (m : NormalizedMutation) : Result (List String) := do
  rejectIf (m.rk ∈ seen) .controlPlaneStoreInvalid
    "A transaction cannot mutate the same record twice."
  let current := (index m.rk).bind fun position => records[position]?
  let effective := current.filter fun r => !expired r now
  match m.expectedGeneration with
  | none =>
    rejectIf (effective.isSome = true) .controlPlaneCasMismatch
      "Record already exists."
    .ok (m.rk :: seen)
  | some expected =>
    if effective.any fun r => r.generation == expected then
      .ok (m.rk :: seen)
    else failRetryable .controlPlaneCasMismatch "Record generation changed."

def ControlPlaneRecord.fence (r : ControlPlaneRecord) : ControlPlaneGenerationFence :=
  { «namespace» := r.namespace, key := r.key, generation := r.generation }

/-- `tombstones.set(rk, fence)`. -/
def setFence (fence : ControlPlaneGenerationFence) (tombstones : List ControlPlaneGenerationFence) :
    List ControlPlaneGenerationFence :=
  if tombstones.any fun f => f.rk == fence.rk then
    updateFirst (fun f => f.rk == fence.rk) (fun _ => fence) tombstones
  else tombstones ++ [fence]

/-- The variables of the second loop of `transact`. -/
structure Pass where
  records : List ControlPlaneRecord
  index : String → Option Nat
  tombstones : List ControlPlaneGenerationFence
  results : List ControlPlaneRecord

/-- `mutation.value === null`. -/
def deleteRecord (rk : String) (p : Pass) : Pass :=
  match (p.index rk).bind fun position =>
    (p.records[position]?).map (position, ·) with
  | none => p
  | some (position, current) =>
    let records := p.records.eraseIdx position
    { p with
      records
      index := indexOf records
      tombstones := setFence current.fence p.tombstones }

/-- `Math.max(current?.generation ?? 0, tombstones.get(rk)?.generation ?? 0)`. -/
def priorGeneration (rk : String) (p : Pass) : Nat :=
  let current := (p.index rk).bind fun position => p.records[position]?
  let fence := p.tombstones.find? fun f => f.rk == rk
  max (current.elim 0 (·.generation)) (fence.elim 0 (·.generation))

/-- `state.records[position] = record`, or a push. -/
def putRecord (record : ControlPlaneRecord) (p : Pass) : Pass :=
  let tombstones := p.tombstones.filter fun f => f.rk != record.rk
  let results := p.results ++ [record]
  match p.index record.rk with
  | none =>
    { records := p.records ++ [record]
      index := Function.update p.index record.rk (some p.records.length)
      tombstones, results }
  | some position =>
    { p with records := p.records.set position record, tombstones, results }

/-- The body of the second loop of `transact`. -/
def applyMutation (env : StoreEnv) (now : Instant) (p : Pass)
    (m : NormalizedMutation) : Result Pass :=
  match m.value with
  | none => .ok (deleteRecord m.rk p)
  | some value => do
    let prior := priorGeneration m.rk p
    rejectIf (maxSafeInteger ≤ prior) .controlPlaneStoreInvalid
      "Control-plane record generation exhausted."
    .ok (putRecord (makeRecord env.sha256 m.namespace m.key (prior + 1) value now m.expiresAt) p)

/-- The two loops of `transact`, on the state it read. -/
def applyBatch (env : StoreEnv) (mutations : List ControlPlaneMutation)
    (now : Instant) (state : EmbeddedState) : Result Pass := do
  let index := indexOf state.records
  let normalized ← mutations.mapM normalizeMutation
  let _ ← normalized.foldlM (checkMutation state.records index now) []
  normalized.foldlM (applyMutation env now)
    { records := state.records, index, tombstones := state.tombstones,
      results := [] }

def transact (env : StoreEnv) (mutations : List ControlPlaneMutation)
    (now : IsoText) (disk : Disk := .durable) : FileM (List ControlPlaneRecord) := do
  checkBatch mutations
  let now ← iso now "now"
  let state ← read env
  let pass ← applyBatch env mutations now state
  write env
    { records := sortByKey env.localeCompare (·.rk) pass.records
      tombstones := sortByKey env.localeCompare (·.rk) pass.tombstones } disk
  return pass.results

-- === snapshot and restore

def snapshot (env : StoreEnv) (now : IsoText) : FileM ControlPlaneSnapshot := do
  let now ← iso now "now"
  let state ← read env
  let records := state.records.filter fun item => !expired item now
  let tombstones := sortByKey env.localeCompare (·.rk) (state.tombstones
    ++ (state.records.filter fun item => expired item now).map (·.fence))
  return {
    createdAt := now
    records
    tombstones := some tombstones
    digest := digest env.sha256 (snapshotBase now records tombstones) }

/-- `#restoreUnchecked`, what `restore` and `restoreWithConfiguredWitness`
run once their guard lets them. -/
def restoreUnchecked (env : StoreEnv) (input : ControlPlaneSnapshot) (disk : Disk := .durable) :
    FileM Unit := do
  let (records, tombstones) ←
    normalizeSnapshot env.sha256 env.localeCompare input
  let current ← read env
  rejectIf (0 < current.records.length ∨ 0 < current.tombstones.length)
    .controlPlaneRestoreConflict
    "Restore refuses to overwrite existing control-plane records or generation fences."
  write env { records, tombstones } disk

-- ===== purge

/-- The mutation that deletes a key only while it holds no live record. -/
def deletion (ns key : Id) : ControlPlaneMutation :=
  { «namespace» := ns.val, key := key.val, expectedGeneration := none,
    value := .null }

/-- The loop of `purgeExpiredControlPlaneRecords`; `removed` counts, and
`disks` says what becomes of the write that comes after so many. -/
def purgeEach (env : StoreEnv) (ns : Id) (now : Instant) (disks : Nat → Disk) :
    List ControlPlaneRecord → Nat → FileM Nat
  | [], removed => return removed
  | record :: rest, removed => do
    let removed ← tryCatch
      (do
        let _ ← transact env [deletion ns record.key] (some now) (disks removed)
        return removed + 1)
      fun error =>
        if error.code = .controlPlaneCasMismatch then return removed
        else throw error
    purgeEach env ns now disks rest removed

def purgeExpiredControlPlaneRecords (env : StoreEnv) (ns : String) (now : IsoText)
    (disks : Nat → Disk := fun _ => .durable) : FileM Nat := do
  let validated ← id ns "namespace"
  let now ← iso now "now"
  let records ← list env ns
  purgeEach env validated now disks (records.filter fun r => expired r now) 0

end OperatorRuntime.ControlPlane
