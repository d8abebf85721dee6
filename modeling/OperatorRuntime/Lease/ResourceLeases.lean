/-
`core/resource-leases.ts`: the store of resource leases and quarantines.

# The file

A mutation runs under the durable lock, on the state it reads, and
writes the whole state back, so calls happen one after the other. How the
write ends is part of the call (`Disk`). The version field is left out:
it is 2 in every file this code writes. The JSON text is not modelled,
only whether it fits (`fits`); `localeCompare` and `Date.parse` are
parameters.

# The lease handle

`release` and `assertOwned` are closures over the lease id, the keys and
the process; here they take the handle as an argument. A lease id is a
value of `crypto.randomUUID`, so its pattern holds by its type.
-/
import Mathlib.Data.List.Sort
import OperatorRuntime.Lib.Keyed
import OperatorRuntime.ResourceIdentity
import OperatorRuntime.StateFile

namespace OperatorRuntime.Lease

open Lib

-- ===== the state

inductive ResourceLeaseMode
  | shared
  | exclusive
deriving DecidableEq

structure Holder where
  leaseId : Uuid
  ownerId : String
  pid : Nat
  processInstance : Option ProcessInstanceIdentity
  mode : ResourceLeaseMode
  acquiredAt : Instant
deriving DecidableEq

structure ResourceEntry where
  key : String
  holders : List Holder
deriving DecidableEq

structure ResourceQuarantine where
  actionId : String
  key : String
  armedAt : Instant
deriving DecidableEq

structure LeaseState where
  resources : List ResourceEntry
  quarantines : List ResourceQuarantine
deriving DecidableEq

/-- What `#read` returns when there is no file. -/
def LeaseState.empty : LeaseState :=
  { resources := [], quarantines := [] }

/-- The platform: `String.prototype.localeCompare`, `Date.parse`, and
whether the serialized state is within `maxBytes`. -/
structure LeaseEnv where
  localeCompare : String → String → Int
  dateParse : DateParse
  fits : LeaseState → Bool

def maxResources : Nat := 20000
def maxHolders : Nat := 512
def maxQuarantines : Nat := 20000

-- ===== validation

def bounded (input : String) (max : Nat) (label : String) : Result String := do
  rejectIf (jsLength input < 1 ∨ max < jsLength input ∨ includesChar input '\x00' = true)
    .resourceLeaseInputInvalid s!"{label} is invalid."
  .ok input

/-- `text.includes('..')`. -/
def includesDots : List Char → Bool
  | '.' :: '.' :: _ => true
  | _ :: rest => includesDots rest
  | [] => false

/-- `input.map(bounded)` of `normalizeKeys`, from `index` on. -/
def boundedKeys : List String → Nat → Result (List String)
  | [], _ => .ok []
  | value :: rest, index => do
    let key ← bounded value 1024 s!"keys[{index}]"
    let keys ← boundedKeys rest (index + 1)
    .ok (key :: keys)

def normalizeKeys (input : List String) : Result (List String) := do
  rejectIf (5000 < input.length) .resourceLeaseInputInvalid
    "Resource key list is invalid."
  let values ← boundedKeys input 0
  let keys := values.eraseDups.insertionSort fun a b => Json.keyLe a b = true
  rejectIf (keys.any (fun key =>
      includesChar key '\x00' || includesDots key.toList) = true)
    .resourceLeaseInputInvalid "Resource key is invalid."
  .ok keys

/-- The checks of `validateState` on the holders of an entry; `ids` are
the lease ids before them. -/
def validateHolders : List Uuid → List Holder → Result Unit
  | _, [] => .ok ()
  | ids, holder :: rest => do
    rejectIf (holder.leaseId ∈ ids) .resourceLeaseCorrupt
      "Resource holder lease ID is invalid."
    let _ ← bounded holder.ownerId 256 "resource ownerId"
    rejectIf (holder.pid < 1 ∨ maxSafeInteger < holder.pid)
      .resourceLeaseCorrupt "Resource holder PID is invalid."
    rejectIf (holder.processInstance.any (fun identity =>
        !validProcessInstance identity || identity.pid != holder.pid) = true)
      .resourceLeaseCorrupt "Resource holder process identity is invalid."
    validateHolders (holder.leaseId :: ids) rest

/-- The checks of `validateState` on the entries; `keys` are the keys
before them. -/
def validateResources : List String → List ResourceEntry → Result Unit
  | _, [] => .ok ()
  | keys, entry :: rest => do
    let key ← bounded entry.key 1024 "resource key"
    rejectIf (key ∈ keys) .resourceLeaseCorrupt
      "Resource lease state contains duplicate resource keys."
    rejectIf (maxHolders < entry.holders.length) .resourceLeaseCorrupt
      "Resource holders are invalid."
    validateHolders [] entry.holders
    validateResources (key :: keys) rest

def validateQuarantines : List (String × String) → List ResourceQuarantine →
    Result Unit
  | _, [] => .ok ()
  | identities, item :: rest => do
    let actionId ← bounded item.actionId 512 "quarantine actionId"
    let key ← bounded item.key 1024 "quarantine key"
    rejectIf ((actionId, key) ∈ identities) .resourceLeaseCorrupt
      "Resource quarantine entries must be unique."
    validateQuarantines ((actionId, key) :: identities) rest

def validateState (state : LeaseState) : Result Unit := do
  rejectIf (maxResources < state.resources.length) .resourceLeaseCorrupt
    "Resource lease state shape is invalid."
  validateResources [] state.resources
  rejectIf (maxQuarantines < state.quarantines.length) .resourceLeaseCorrupt
    "Resource quarantine state is invalid."
  validateQuarantines [] state.quarantines

-- ===== reaping

/-- The holder's process is known to have ended. -/
def Holder.reapable (env : LeaseEnv) (observe : ProcessInstanceObserver)
    (localInstance : ProcessInstanceIdentity) (holder : Holder) : Bool :=
  localPidObservationAdmissible holder.processInstance localInstance
    && processInstanceDefinitelyStale env.dateParse holder.processInstance
      ((observe holder.pid).getD .unknown)

def filterHolders (keep : Holder → Bool) (resources : List ResourceEntry) : List ResourceEntry :=
  (resources.map fun entry =>
    { entry with holders := entry.holders.filter keep }).filter
      fun entry => !entry.holders.isEmpty

def reapDeadHolders (env : LeaseEnv) (observe : ProcessInstanceObserver)
    (localInstance : ProcessInstanceIdentity) (state : LeaseState) :
    LeaseState :=
  { state with
    resources := filterHolders
      (fun holder => !holder.reapable env observe localInstance)
      state.resources }

-- ===== acquire

/-- The arguments of `acquire` after validation. -/
structure AcquireRequest where
  ownerId : String
  keys : List String
  mode : ResourceLeaseMode
  mutationActionId : Option String

def acquireRequest (ownerId : String) (keys : List String)
    (mode : ResourceLeaseMode) (mutationActionId : Option String) :
    Result AcquireRequest := do
  let ownerId ← bounded ownerId 256 "ownerId"
  let keys ← normalizeKeys keys
  match mutationActionId with
  | none => .ok { ownerId, keys, mode, mutationActionId := none }
  | some actionId =>
    let actionId ← bounded actionId 512 "mutationActionId"
    .ok { ownerId, keys, mode, mutationActionId := some actionId }

def conflictingQuarantine? (state : LeaseState) (actionId : Option String)
    (key : String) : Option ResourceQuarantine :=
  state.quarantines.find? fun item =>
    some item.actionId != actionId && resourceKeysConflict item.key key

/-- The first loop of `acquire`, for an exclusive lease. -/
def checkQuarantines (state : LeaseState) (actionId : Option String) :
    List String → Result Unit
  | [] => .ok ()
  | key :: rest =>
    match conflictingQuarantine? state actionId key with
    | some quarantine =>
      let holder := quarantine.actionId
      failRetryable .resourceQuarantined
        s!"Resource {key} has unresolved mutation state from action {holder}."
    | none => checkQuarantines state actionId rest

/-- A holder excludes another one. -/
def excludes (mode : ResourceLeaseMode) (holder : Holder) : Bool :=
  mode == .exclusive || holder.mode == .exclusive

/-- The second loop of `acquire`. -/
def checkHolders (state : LeaseState) (mode : ResourceLeaseMode) :
    List String → Result Unit
  | [] => .ok ()
  | key :: rest =>
    if state.resources.any fun entry =>
        resourceKeysConflict entry.key key && entry.holders.any (excludes mode)
    then
      failRetryable .resourceBusy
        s!"Resource {key} conflicts with another active execution."
    else checkHolders state mode rest

/-- `a.localeCompare(b) <= 0`. -/
def LeaseEnv.le (env : LeaseEnv) (a b : String) : Bool :=
  env.localeCompare a b ≤ 0

/-- Push a holder and sort. -/
def addHolder (env : LeaseEnv) (holder : Holder) (entry : ResourceEntry) : ResourceEntry :=
  { entry with
    holders := (entry.holders ++ [holder]).insertionSort
      fun a b => env.le a.leaseId.val b.leaseId.val = true }

/-- One round of the last loop of `acquire`. -/
def grantKey (env : LeaseEnv) (holder : Holder) (resources : List ResourceEntry) (key : String) :
    Result (List ResourceEntry) :=
  match resources.find? fun entry => entry.key == key with
  | none => do
    rejectIf (maxResources ≤ resources.length) .resourceLeaseLimit
      "Resource lease table is full."
    .ok (resources ++ [addHolder env holder { key, holders := [] }])
  | some entry => do
    rejectIf (maxHolders ≤ entry.holders.length) .resourceLeaseLimit
      s!"Resource {key} has too many shared holders."
    .ok (updateFirst (fun entry => entry.key == key) (addHolder env holder) resources)

def grantKeys (env : LeaseEnv) (holder : Holder) :
    List ResourceEntry → List String → Result (List ResourceEntry)
  | resources, [] => .ok resources
  | resources, key :: rest => do
    let resources ← grantKey env holder resources key
    grantKeys env holder resources rest

def AcquireRequest.holder (request : AcquireRequest) (leaseId : Uuid)
    (processInstance : ProcessInstanceIdentity) (now : Instant) : Holder :=
  { leaseId, ownerId := request.ownerId, pid := processInstance.pid
    processInstance := some processInstance, mode := request.mode
    acquiredAt := now }

def acquireIn (env : LeaseEnv) (request : AcquireRequest) (leaseId : Uuid)
    (processInstance : ProcessInstanceIdentity)
    (observe : ProcessInstanceObserver) (now : Instant) (state : LeaseState) :
    Result LeaseState := do
  let state := reapDeadHolders env observe processInstance state
  if request.mode = .exclusive then
    checkQuarantines state request.mutationActionId request.keys
  checkHolders state request.mode request.keys
  let resources ← grantKeys env
    (request.holder leaseId processInstance now) state.resources request.keys
  .ok { state with
    resources := resources.insertionSort fun a b => env.le a.key b.key = true }

-- === release, assertOwned, inspect

def releaseIn (leaseId : Uuid) (state : LeaseState) : LeaseState :=
  { state with
    resources := filterHolders (fun holder => holder.leaseId != leaseId)
      state.resources }

-- ===== quarantines

/-- The first loop of `quarantine`. -/
def checkQuarantined (state : LeaseState) (actionId : String) :
    List String → Result Unit
  | [] => .ok ()
  | key :: rest =>
    match conflictingQuarantine? state (some actionId) key with
    | some conflict =>
      let holder := conflict.actionId
      failRetryable .resourceQuarantined
        s!"Resource {key} is already quarantined by unresolved action {holder}."
    | none => checkQuarantined state actionId rest

/-- The second loop of `quarantine`. -/
def armKeys (actionId : String) (now : Instant) : List ResourceQuarantine → List String →
      Result (List ResourceQuarantine)
  | quarantines, [] => .ok quarantines
  | quarantines, key :: rest =>
    if quarantines.any fun item =>
        item.actionId == actionId && item.key == key
    then armKeys actionId now quarantines rest
    else do
      rejectIf (maxQuarantines ≤ quarantines.length)
        .resourceQuarantineLimit "Resource quarantine table is full."
      armKeys actionId now
        (quarantines ++ [{ actionId, key, armedAt := now }]) rest

/-- The order `quarantine` sorts by. -/
def quarantineLe (env : LeaseEnv) (a b : ResourceQuarantine) : Bool :=
  if env.localeCompare a.key b.key = 0 then env.le a.actionId b.actionId
  else env.le a.key b.key

def quarantineIn (env : LeaseEnv) (actionId : String) (keys : List String)
    (now : Instant) (state : LeaseState) : Result LeaseState := do
  checkQuarantined state actionId keys
  let quarantines ← armKeys actionId now state.quarantines keys
  .ok { state with
    quarantines := quarantines.insertionSort
      fun a b => quarantineLe env a b = true }

def clearQuarantineIn (actionId : String) (state : LeaseState) : LeaseState :=
  { state with
    quarantines := state.quarantines.filter fun item =>
      item.actionId != actionId }

-- ===== calls

/-- What `#mutate` asks of the state it writes. -/
def accept (env : LeaseEnv) (state : LeaseState) : Result Unit := do
  validateState state
  rejectIf (env.fits state = false) .resourceLeaseCorrupt
    "Resource lease state is invalid. Serialized state exceeds the bounded size."

/-- `#mutate`: the file it leaves, and whether it throws. A write can throw
after its rename, and the lock can be lost once the state is written; in
both cases the new state is in the file of a call that throws. -/
def mutate (env : LeaseEnv) (disk : Disk) (mutator : LeaseState → Result LeaseState)
    (stored : LeaseState) : LeaseState × Result Unit :=
  replaceState (accept env)
    { code := .resourceLeaseCorrupt, message := "Resource lease state is invalid." } disk stored do
      validateState stored
      let state ← mutator stored
      .ok (state, ())

/-- The calls of the store, with what they draw from outside. -/
inductive LeaseCall
  | acquire (ownerId : String) (keys : List String) (mode : ResourceLeaseMode)
      (mutationActionId : Option String) (leaseId : Uuid)
      (processInstance : ProcessInstanceIdentity)
      (observe : ProcessInstanceObserver) (now : Instant)
  | release (leaseId : Uuid)
  | quarantine (actionId : String) (keys : List String) (now : Instant)
  | clearQuarantine (actionId : String)
  | inspect (observe : ProcessInstanceObserver)
      (localInstance : ProcessInstanceIdentity)

/-- A check of the arguments, before the lock is taken. -/
def checked {α : Type} (stored : LeaseState) (check : Result α)
    (call : α → LeaseState × Result Unit) : LeaseState × Result Unit :=
  match check with
  | .error e => (stored, .error e)
  | .ok value => call value

/-- The file after a call, and whether it throws. An empty key set is a
lease on nothing, and `inspect` reaps in a copy. -/
def LeaseCall.run (env : LeaseEnv) (disk : Disk) (stored : LeaseState) :
    LeaseCall → LeaseState × Result Unit
  | .acquire ownerId keys mode mutationActionId leaseId processInstance observe now =>
    checked stored (acquireRequest ownerId keys mode mutationActionId) fun request =>
      if request.keys = [] then (stored, .ok ())
      else mutate env disk (acquireIn env request leaseId processInstance observe now) stored
  | .release leaseId => mutate env disk (fun s => .ok (releaseIn leaseId s)) stored
  | .quarantine actionId keys now =>
    checked stored (bounded actionId 512 "actionId") fun actionId =>
      checked stored (normalizeKeys keys) fun keys =>
        if keys = [] then (stored, .ok ())
        else mutate env disk (quarantineIn env actionId keys now) stored
  | .clearQuarantine actionId =>
    checked stored (bounded actionId 512 "actionId") fun actionId =>
      mutate env disk (fun s => .ok (clearQuarantineIn actionId s)) stored
  | .inspect _ _ => (stored, validateState stored)

/-- The stored file and the processes that have ended. -/
structure LeaseWorld where
  stored : LeaseState
  ended : List ProcessInstanceIdentity

def LeaseWorld.initial : LeaseWorld :=
  { stored := .empty, ended := [] }

inductive LeaseAct
  | call (c : LeaseCall) (disk : Disk)
  | processEnds (process : ProcessInstanceIdentity)

def LeaseWorld.step (env : LeaseEnv) (w : LeaseWorld) : LeaseAct → LeaseWorld
  | .call c disk => { w with stored := (c.run env disk w.stored).1 }
  | .processEnds process => { w with ended := process :: w.ended }

end OperatorRuntime.Lease
