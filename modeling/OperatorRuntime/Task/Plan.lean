/-
`core/task-plan.ts`: a task as subgoals that depend on one another, worked
off one at a time and revised by batches of operations.

An operation works on the plan object it is passed; here it answers the
plan it leaves. A call that throws answers no plan: what it wrote before it
threw is left out.

`stableSubgoalId` hashes, and timestamps are checked with `Date.parse`;
both are parameters. Assertions are carried as they stand, only counted.
-/
import Mathlib.Logic.Relation
import OperatorRuntime.Json
import OperatorRuntime.Lib.Keyed
import OperatorRuntime.Lib.Runs
import OperatorRuntime.ProcessInstance

namespace OperatorRuntime.Task

open Lib

/-- SHA-256 of a text and `Date.parse`. -/
structure Platform where
  sha256 : String → Hex64
  dateParse : DateParse

-- ===== records

inductive TaskSubgoalStatus
  | pending
  | ready
  | active
  | blocked
  | verified
  | failed
  | cancelled
deriving DecidableEq

structure TaskPlanAction where
  capability : String
  input : JsonObject
  target : Option String

structure SuccessContract extends TaskPlanAction where
  assertions : List Json

structure TaskPlanStepDefinition where
  key : String
  title : String
  parentKey : Option String
  dependsOn : Option (List String)
  resourceScope : Option (List String)
  observe : TaskPlanAction
  action : TaskPlanAction
  verify : SuccessContract

structure TaskPlanSubgoal where
  id : String
  key : String
  sourceIndex : Nat
  parentId : Option String
  description : String
  dependsOn : List String
  status : TaskSubgoalStatus
  requiredEvidence : List String
  successContract : SuccessContract
  observe : TaskPlanAction
  action : TaskPlanAction
  attempts : Nat
  resourceScope : List String
  failureReason : Option String
  updatedAt : String

structure PlanRevision where
  revision : Nat
  «at» : String
  reason : String
  operations : List String

structure DurableTaskPlan where
  taskId : String
  revision : Nat
  objective : String
  constraints : List String
  finalSuccessConditions : List String
  subgoals : List TaskPlanSubgoal
  revisions : List PlanRevision
  updatedAt : String

inductive TaskPlanRevisionOperation
  | replace (key : String) (step : TaskPlanStepDefinition)
  | insertPrerequisite (beforeKey : String) (step : TaskPlanStepDefinition)
  | cancel (key : String)
  | invalidate (key reason : String)

def maxSubgoals : Nat := 100
def maxRevisions : Nat := 100

-- ===== validators

variable {α : Type}

def invalid (message : String) : Result α :=
  fail .taskPlanInvalid message

def bounded (value : String) (max : Nat) (label : String) : Result String := do
  rejectIf (jsLength value < 1 ∨ max < jsLength value ∨ includesChar value '\x00' = true)
    .taskPlanInvalid s!"{label} is invalid."
  .ok value

/-- `/^\d{4}-\d{2}-\d{2}T\d{2}:\d{2}:\d{2}\.\d{3}Z$/`. -/
def isoClasses : List (Char → Bool) :=
  List.replicate 4 Char.isDigit ++ [isDash] ++ List.replicate 2 Char.isDigit ++ [isDash]
    ++ List.replicate 2 Char.isDigit ++ [(· == 'T')] ++ List.replicate 2 Char.isDigit
    ++ [(· == ':')] ++ List.replicate 2 Char.isDigit ++ [(· == ':')]
    ++ List.replicate 2 Char.isDigit ++ [(· == '.')] ++ List.replicate 3 Char.isDigit
    ++ [(· == 'Z')]

def validIso (platform : Platform) (value label : String) : Result String := do
  let text ← bounded value 64 label
  rejectIf (matchesClasses isoClasses text.toList = false ∨ platform.dateParse text = none)
    .taskPlanInvalid s!"{label} is invalid."
  .ok text

/-- `[A-Za-z0-9._:-]`. -/
def isKeyChar (c : Char) : Bool :=
  isAlnum c || c == '.' || c == '_' || c == ':' || c == '-'

/-- `/^[A-Za-z0-9][A-Za-z0-9._:-]{0,127}$/`. -/
def isKey : List Char → Bool
  | [] => false
  | c :: cs => isAlnum c && cs.length ≤ 127 && cs.all isKeyChar

def validKey (value : String) : Result String := do
  let key ← bounded value 128 "subgoal key"
  rejectIf (isKey key.toList = false) .taskPlanInvalid "Subgoal key is invalid."
  .ok key

/-- `[...new Set(values)]`. -/
def distinct (values : List String) : List String :=
  values.reverse.dedup.reverse

def uniqueKeys (values : List String) : Result (List String) := do
  rejectIf (maxSubgoals < values.length) .taskPlanInvalid "Subgoal dependencies are invalid."
  let keys ← values.mapM validKey
  .ok (distinct keys)

def uniqueBounded (values : List String) (max length : Nat) (label : String) :
    Result (List String) := do
  rejectIf (max < values.length) .taskPlanInvalid s!"{label} is invalid."
  let result ← values.mapM fun value => bounded value length label
  rejectIf (¬ result.Nodup) .taskPlanInvalid s!"{label} contains duplicates."
  .ok result

def cloneAction (input : TaskPlanAction) : Result TaskPlanAction := do
  let capability ← bounded input.capability 256 "action capability"
  rejectIf (256 * 1024 < (Json.canonicalJson (.obj input.input)).utf8ByteSize) .taskPlanInvalid
    "Task plan action input is invalid."
  let target ← input.target.mapM fun target => bounded target 4096 "action target"
  .ok { capability, input := input.input, target }

def cloneContract (input : SuccessContract) : Result SuccessContract := do
  let action ← cloneAction input.toTaskPlanAction
  rejectIf (input.assertions.length < 1 ∨ 20 < input.assertions.length) .taskPlanInvalid
    "Task plan success contract assertions are invalid."
  .ok { action with assertions := input.assertions }

def stableSubgoalId (platform : Platform) (taskId key : String) : String :=
  "subgoal-" ++ String.ofList ((platform.sha256 (taskId ++ "\x00" ++ key)).val.toList.take 32)

-- ===== the graph

/-- `new Map(subgoals.map((item) => [item.id, item])).get(id)`. -/
def byId? (subgoals : List TaskPlanSubgoal) (id : String) : Option TaskPlanSubgoal :=
  subgoals.reverse.find? fun item => item.id == id

/-- `visit(id)` of `assertAcyclic`, which answers `visited`. A path of more
steps than there are subgoals repeats one, so the budget is never what
stops it. -/
def visit (items : List TaskPlanSubgoal) :
    Nat → List String → List String → String → Result (List String)
  | 0, _, _, _ => invalid "Task plan dependency graph contains a cycle."
  | budget + 1, visiting, visited, id => do
    rejectIf (id ∈ visiting) .taskPlanInvalid "Task plan dependency graph contains a cycle."
    if id ∈ visited then .ok visited
    else
      let visited ← ((byId? items id).elim [] (·.dependsOn)).foldlM
        (visit items budget (id :: visiting)) visited
      .ok (id :: visited)

def assertAcyclic (items : List TaskPlanSubgoal) : Result Unit := do
  let _ ← (items.map (·.id)).foldlM (visit items (items.length + 2) []) []
  .ok ()

/-- `['VERIFIED', 'CANCELLED'].includes(status)`. -/
def TaskPlanSubgoal.settled (item : TaskPlanSubgoal) : Bool :=
  item.status == .verified || item.status == .cancelled

/-- The dependency on `id` is met. -/
def settledAt (subgoals : List TaskPlanSubgoal) (id : String) : Bool :=
  (byId? subgoals id).any (·.settled)

/-- The body of the loop of `refreshReady`. It only moves items between
`PENDING` and `READY`, which the loop does not tell apart when it reads the
dependencies. -/
def refreshItem (subgoals : List TaskPlanSubgoal) («at» : String) (item : TaskPlanSubgoal) :
    TaskPlanSubgoal :=
  if item.status = .pending ∨ item.status = .ready then
    if item.dependsOn.all (settledAt subgoals) then
      { item with status := .ready, updatedAt := «at» }
    else { item with status := .pending }
  else item

def refreshReady (plan : DurableTaskPlan) («at» : String) : DurableTaskPlan :=
  { plan with subgoals := plan.subgoals.map (refreshItem plan.subgoals «at») }

-- ===== creation

/-- The input of `createDurableTaskPlan`, its time given. -/
structure PlanInput where
  taskId : String
  objective : String
  constraints : List String
  finalSuccessConditions : List String
  steps : List TaskPlanStepDefinition
  now : String

/-- `ids.get(key) ?? missing(key)`. -/
def idOf (platform : Platform) (taskId : String) (keys : List String) (key : String) :
    Result String :=
  if key ∈ keys then .ok (stableSubgoalId platform taskId key)
  else invalid s!"Task plan refers to unknown subgoal {key}."

def freshEvidence : List String :=
  ["fresh-machine-observation", "canonical-verification"]

def createSubgoal (platform : Platform) (taskId : String) (keys : List String) («at» : String)
    (sourceIndex : Nat) (step : TaskPlanStepDefinition) : Result TaskPlanSubgoal :=
  do
    let dependsOnKeys ← match step.dependsOn with
      | none => .ok (if sourceIndex = 0 then [] else keys[sourceIndex - 1]?.toList)
      | some values => uniqueKeys values
    rejectIf (step.key ∈ dependsOnKeys) .taskPlanInvalid
      s!"Subgoal {step.key} cannot depend on itself."
    let dependsOn ← dependsOnKeys.mapM (idOf platform taskId keys)
    let parentId ← step.parentKey.mapM fun parentKey => do
      let parentKey ← validKey parentKey
      idOf platform taskId keys parentKey
    let description ← bounded step.title 512 "subgoal title"
    let successContract ← cloneContract step.verify
    let observe ← cloneAction step.observe
    let action ← cloneAction step.action
    let resourceScope ← uniqueBounded (step.resourceScope.getD []) 100 4096 "resource scope"
    .ok
      { id := stableSubgoalId platform taskId step.key, key := step.key, sourceIndex, parentId
        description, dependsOn
        status := if dependsOn.length = 0 then .ready else .pending
        requiredEvidence := freshEvidence, successContract, observe, action
        attempts := 0, resourceScope, failureReason := none, updatedAt := «at» }

def createDurableTaskPlan (platform : Platform) (input : PlanInput) :
    Result DurableTaskPlan := do
  let at' ← validIso platform input.now "plan timestamp"
  rejectIf (input.steps.length < 1 ∨ maxSubgoals < input.steps.length) .taskPlanInvalid
    "A task plan requires 1-100 subgoals."
  let keys ← input.steps.mapM fun step => validKey step.key
  rejectIf (¬ keys.Nodup) .taskPlanInvalid "Task plan subgoal keys must be unique."
  let subgoals ← input.steps.zipIdx.mapM fun (step, sourceIndex) =>
    createSubgoal platform input.taskId keys at' sourceIndex step
  assertAcyclic subgoals
  let taskId ← bounded input.taskId 128 "task id"
  let objective ← bounded input.objective 16384 "plan objective"
  let constraints ← uniqueBounded input.constraints 2000 16384 "plan constraints"
  let finalSuccessConditions ← uniqueBounded input.finalSuccessConditions 1000 16384
    "final success conditions"
  .ok
    { taskId, revision := 1, objective, constraints, finalSuccessConditions, subgoals
      revisions := [], updatedAt := at' }

-- ===== normalisation

/-- The first loop of `normalizeDurableTaskPlan` over one subgoal. -/
def normalizeSubgoal (platform : Platform) (taskId : String) (item : TaskPlanSubgoal) :
    Result TaskPlanSubgoal := do
  let _ ← validKey item.key
  let _ ← bounded item.id 128 "subgoal id"
  let _ ← bounded item.description 512 "subgoal description"
  let _ ← validIso platform item.updatedAt "subgoal updatedAt"
  rejectIf (item.id ≠ stableSubgoalId platform taskId item.key) .taskPlanInvalid
    "Durable task plan subgoal identity is invalid."
  rejectIf (maxSubgoals ≤ item.sourceIndex) .taskPlanInvalid "Subgoal source index is invalid."
  rejectIf (1000000 < item.attempts) .taskPlanInvalid "Subgoal attempts are invalid."
  let dependsOn ← uniqueBounded item.dependsOn maxSubgoals 128 "subgoal dependencies"
  let requiredEvidence ← uniqueBounded item.requiredEvidence 20 256 "required evidence"
  let resourceScope ← uniqueBounded item.resourceScope 100 4096 "resource scope"
  let successContract ← cloneContract item.successContract
  let observe ← cloneAction item.observe
  let action ← cloneAction item.action
  let _ ← item.parentId.mapM fun parentId => bounded parentId 128 "parent id"
  let _ ← item.failureReason.mapM fun reason => bounded reason 4096 "failure reason"
  .ok { item with
    dependsOn, requiredEvidence, resourceScope, successContract, observe, action }

/-- The second loop over one subgoal. -/
def checkLinks (ids : List String) (item : TaskPlanSubgoal) : Result Unit := do
  rejectIf (∃ id ∈ item.dependsOn, id ∉ ids ∨ id = item.id) .taskPlanInvalid
    "Subgoal dependency is invalid."
  rejectIf (∃ parentId ∈ item.parentId, parentId ∉ ids ∨ parentId = item.id) .taskPlanInvalid
    "Subgoal parent is invalid."

/-- The loop over one revision. -/
def checkRevision (platform : Platform) (current : Nat) (revision : PlanRevision) :
    Result Unit := do
  rejectIf (revision.revision < 2 ∨ current < revision.revision) .taskPlanInvalid
    "Task plan revision entry is invalid."
  let _ ← validIso platform revision.at "revision timestamp"
  let _ ← bounded revision.reason 4096 "revision reason"
  let _ ← uniqueBounded revision.operations 20 512 "revision operations"

/-- `normalizeDurableTaskPlan(input)`. Ids and keys are compared after the
loop that also checks the fields of every subgoal. -/
def normalizeDurableTaskPlan (platform : Platform) (input : DurableTaskPlan) :
    Result DurableTaskPlan := do
  rejectIf (input.revision < 1 ∨ maxSafeInteger < input.revision) .taskPlanInvalid
    "Durable task plan version is invalid."
  let _ ← bounded input.taskId 128 "task id"
  let _ ← bounded input.objective 16384 "plan objective"
  let _ ← validIso platform input.updatedAt "plan updatedAt"
  let _ ← uniqueBounded input.constraints 2000 16384 "plan constraints"
  let _ ← uniqueBounded input.finalSuccessConditions 1000 16384 "final success conditions"
  rejectIf (input.subgoals.length < 1 ∨ maxSubgoals < input.subgoals.length) .taskPlanInvalid
    "Durable task plan subgoals are invalid."
  let subgoals ← input.subgoals.mapM (normalizeSubgoal platform input.taskId)
  rejectIf (¬ (subgoals.map (·.id)).Nodup ∨ ¬ (subgoals.map (·.key)).Nodup) .taskPlanInvalid
    "Durable task plan subgoal identity is invalid."
  subgoals.forM (checkLinks (subgoals.map (·.id)))
  assertAcyclic subgoals
  rejectIf (maxRevisions < input.revisions.length) .taskPlanInvalid
    "Task plan revision history is invalid."
  input.revisions.forM (checkRevision platform input.revision)
  .ok (refreshReady { input with subgoals } input.updatedAt)

-- ===== operations

def requireSubgoal (plan : DurableTaskPlan) (id : String) : Result TaskPlanSubgoal :=
  match plan.subgoals.find? fun candidate => candidate.id == id with
  | some item => .ok item
  | none => invalid s!"Subgoal {id} was not found."

def updateSubgoal (plan : DurableTaskPlan) (id : String)
    (write : TaskPlanSubgoal → TaskPlanSubgoal) : DurableTaskPlan :=
  { plan with subgoals := updateFirst (fun item => item.id == id) write plan.subgoals }

/-- `nextReadySubgoal(plan)`: the plan it leaves, and its answer. -/
def nextReadySubgoal (plan : DurableTaskPlan) : DurableTaskPlan × Option TaskPlanSubgoal :=
  let plan := refreshReady plan plan.updatedAt
  (plan, plan.subgoals.find? fun item => item.status == .ready)

def activateSubgoal (platform : Platform) (plan : DurableTaskPlan) (id «at» : String) :
    Result DurableTaskPlan := do
  let item ← requireSubgoal plan id
  rejectIf (item.status ≠ .ready ∧ item.status ≠ .active) .taskPlanInvalid
    s!"Subgoal {item.key} is not ready."
  let attempts := if item.status = .ready then item.attempts + 1 else item.attempts
  let updatedAt ← validIso platform «at» "activation timestamp"
  .ok { updateSubgoal plan id fun item => { item with attempts, status := .active, updatedAt }
        with updatedAt }

def verifySubgoal (platform : Platform) (plan : DurableTaskPlan) (id «at» : String) :
    Result DurableTaskPlan := do
  let item ← requireSubgoal plan id
  rejectIf (item.status ≠ .active) .taskPlanInvalid s!"Subgoal {item.key} is not active."
  let updatedAt ← validIso platform «at» "verification timestamp"
  .ok (refreshReady
    { updateSubgoal plan id fun item => { item with status := .verified, updatedAt }
      with updatedAt } updatedAt)

-- ===== revision

def createRevisionSubgoal (platform : Platform) (plan : DurableTaskPlan)
    (step : TaskPlanStepDefinition) (sourceIndex : Nat) («at» : String) :
    Result TaskPlanSubgoal := do
  let key ← validKey step.key
  let description ← bounded step.title 512 "subgoal title"
  let successContract ← cloneContract step.verify
  let observe ← cloneAction step.observe
  let action ← cloneAction step.action
  let resourceScope ← uniqueBounded (step.resourceScope.getD []) 100 4096 "resource scope"
  .ok
    { id := stableSubgoalId platform plan.taskId key, key := step.key, sourceIndex
      parentId := none, description, dependsOn := [], status := .pending
      requiredEvidence := freshEvidence, successContract, observe, action, attempts := 0
      resourceScope, failureReason := none, updatedAt := «at» }

/-- The variables of the loop of `invalidateDependents`. -/
structure Invalidation where
  subgoals : List TaskPlanSubgoal
  queue : List String
  seen : List String

def TaskPlanSubgoal.invalidated (reason «at» : String) (item : TaskPlanSubgoal) : TaskPlanSubgoal :=
  { item with status := .pending, failureReason := some reason, updatedAt := «at» }

/-- One round of the loop. Every id of the queue is one of a subgoal, so
`requireSubgoal` does not throw in it. -/
def invalidateNext (reason «at» : String) (s : Invalidation) : Option Invalidation :=
  match s.queue with
  | [] => none
  | current :: queue =>
    if current ∈ s.seen then some { s with queue }
    else
      some
        { subgoals := updateFirst (fun item => item.id == current)
            (TaskPlanSubgoal.invalidated reason «at») s.subgoals
          queue := queue ++ (s.subgoals.filter fun candidate =>
            current ∈ candidate.dependsOn).map (·.id)
          seen := current :: s.seen }

/-- `invalidateDependents(plan, id, reason, at)`. A round takes one id from
the queue and enters the dependents of a subgoal once, so the budget is
never what stops it. -/
def invalidateDependents (plan : DurableTaskPlan) (id reason «at» : String) : DurableTaskPlan :=
  let n := plan.subgoals.length
  { plan with subgoals := (whileSome (invalidateNext reason «at») ((n + 1) * (n + 1))
      { subgoals := plan.subgoals, queue := [id], seen := [] }).subgoals }

def TaskPlanRevisionOperation.targetKey : TaskPlanRevisionOperation → String
  | .replace key _ => key
  | .insertPrerequisite beforeKey _ => beforeKey
  | .cancel key => key
  | .invalidate key _ => key

def describeOperation : TaskPlanRevisionOperation → String
  | .insertPrerequisite beforeKey step => s!"insert_prerequisite:{beforeKey}:{step.key}"
  | .replace key _ => s!"replace:{key}"
  | .cancel key => s!"cancel:{key}"
  | .invalidate key _ => s!"invalidate:{key}"

def updateByKey (plan : DurableTaskPlan) (key : String)
    (write : TaskPlanSubgoal → TaskPlanSubgoal) : DurableTaskPlan :=
  { plan with subgoals := updateFirst (fun item => item.key == key) write plan.subgoals }

/-- `subgoals.splice(subgoals.indexOf(target), 0, inserted)`. -/
def insertBefore (key : String) (inserted : TaskPlanSubgoal) :
    List TaskPlanSubgoal → List TaskPlanSubgoal
  | [] => []
  | item :: items =>
    if item.key = key then inserted :: item :: items
    else item :: insertBefore key inserted items

def reviseTarget (platform : Platform) (timestamp : String) (plan : DurableTaskPlan)
    (target : TaskPlanSubgoal) (operation : TaskPlanRevisionOperation) :
    Result DurableTaskPlan :=
  match operation with
  | .cancel _ => do
    rejectIf (target.status = .active ∨ target.status = .verified) .taskPlanInvalid
      "Active or verified subgoals cannot be cancelled."
    .ok (updateByKey plan target.key fun item =>
      { item with status := .cancelled, updatedAt := timestamp })
  | .invalidate _ reason => do
    rejectIf (target.status ≠ .verified) .taskPlanInvalid
      "Only a verified subgoal can be invalidated."
    let reason ← bounded reason 4096 "invalidation reason"
    .ok (invalidateDependents plan target.id reason timestamp)
  | .replace _ step => do
    rejectIf (target.status = .active ∨ target.status = .verified) .taskPlanInvalid
      "Active or verified subgoals cannot be replaced."
    let replacement ← createRevisionSubgoal platform plan step target.sourceIndex timestamp
    .ok (updateByKey plan target.key fun item =>
      { replacement with
        id := item.id, key := item.key, dependsOn := item.dependsOn, parentId := item.parentId })
  | .insertPrerequisite _ step => do
    rejectIf (target.status = .active ∨ target.status = .verified) .taskPlanInvalid
      "Prerequisites cannot be inserted before active or verified subgoals."
    rejectIf (maxSubgoals ≤ plan.subgoals.length) .taskPlanInvalid
      "Task plan subgoal limit reached."
    let sourceIndex := (plan.subgoals.map (·.sourceIndex)).foldl max 0 + 1
    let inserted ← createRevisionSubgoal platform plan step sourceIndex timestamp
    rejectIf (∃ item ∈ plan.subgoals, item.key = inserted.key) .taskPlanInvalid
      "Inserted prerequisite key already exists."
    let inserted := { inserted with dependsOn := target.dependsOn }
    let plan := updateByKey plan target.key fun item =>
      { item with dependsOn := [inserted.id], status := .pending, updatedAt := timestamp }
    .ok { plan with subgoals := insertBefore target.key inserted plan.subgoals }

def reviseOne (platform : Platform) (timestamp : String) (plan : DurableTaskPlan)
    (operation : TaskPlanRevisionOperation) : Result DurableTaskPlan := do
  let key ← validKey operation.targetKey
  match plan.subgoals.find? fun item => item.key == key with
  | none => invalid s!"Plan revision target {key} was not found."
  | some target => reviseTarget platform timestamp plan target operation

def reviseDurableTaskPlan (platform : Platform) (planInput : DurableTaskPlan)
    (operations : List TaskPlanRevisionOperation) (reason «at» : String) :
    Result DurableTaskPlan := do
  let plan ← normalizeDurableTaskPlan platform planInput
  rejectIf (operations.length < 1 ∨ 20 < operations.length) .taskPlanInvalid
    "Plan revision requires 1-20 operations."
  let timestamp ← validIso platform «at» "revision timestamp"
  let plan ← operations.foldlM (reviseOne platform timestamp) plan
  assertAcyclic plan.subgoals
  let reason ← bounded reason 4096 "revision reason"
  let revision := plan.revision + 1
  let revisions := plan.revisions
    ++ [{ revision, «at» := timestamp, reason, operations := operations.map describeOperation }]
  let plan := { plan with
    revision, updatedAt := timestamp
    revisions := revisions.drop (revisions.length - maxRevisions) }
  normalizeDurableTaskPlan platform (refreshReady plan timestamp)

/-
A run of a task plan: the accepted calls made on it, one after the other.
-/

-- ===== calls

inductive PlanCall
  | next
  | activate (id «at» : String)
  | verify (id «at» : String)
  | revise (operations : List TaskPlanRevisionOperation) (reason «at» : String)

def step (platform : Platform) (plan : DurableTaskPlan) (call : PlanCall) :
    Option DurableTaskPlan :=
  match call with
  | .next => some (nextReadySubgoal plan).1
  | .activate id «at» => (activateSubgoal platform plan id «at»).toOption
  | .verify id «at» => (verifySubgoal platform plan id «at»).toOption
  | .revise operations reason «at» =>
    (reviseDurableTaskPlan platform plan operations reason «at»).toOption

/-- An operation of the call replaces the subgoal of this key. -/
def PlanCall.replaces (key : String) : PlanCall → Prop
  | .revise operations _ _ => ∃ step, .replace key step ∈ operations
  | _ => False

-- ===== laws

/-- Whatever is ready, active or verified has its dependencies met. -/
def Sequenced (plan : DurableTaskPlan) : Prop :=
  ∀ item ∈ plan.subgoals, item.status = .ready ∨ item.status = .active ∨ item.status = .verified →
      ∀ id ∈ item.dependsOn, settledAt plan.subgoals id = true

def statusOf (plan : DurableTaskPlan) (key : String) : Option TaskSubgoalStatus :=
  (plan.subgoals.find? fun item => item.key == key).map (·.status)

-- ===== conditions

/-- The subgoal of the second id depends on the first. -/
def DependsOn (subgoals : List TaskPlanSubgoal) (id dependent : String) : Prop :=
  ∃ item ∈ subgoals, item.id = dependent ∧ id ∈ item.dependsOn

/-- An operation spares cancelled subgoals: an invalidation reaches none, no
prerequisite is inserted before one, and one that is replaced carries no
dependent that is active or verified. -/
def SparesTarget (subgoals : List TaskPlanSubgoal) (target : TaskPlanSubgoal) :
    TaskPlanRevisionOperation → Prop
  | .cancel _ => True
  | .invalidate _ _ => ∀ item ∈ subgoals,
      Relation.ReflTransGen (DependsOn subgoals) target.id item.id → item.status ≠ .cancelled
  | .replace _ _ => target.status = .cancelled → ∀ item ∈ subgoals,
      target.id ∈ item.dependsOn → item.status ≠ .active ∧ item.status ≠ .verified
  | .insertPrerequisite _ _ => target.status ≠ .cancelled

/-- Every operation of a batch, on the plan the ones before it leave. -/
def SparesBatch (platform : Platform) (timestamp : String) :
    DurableTaskPlan → List TaskPlanRevisionOperation → Prop
  | _, [] => True
  | plan, operation :: operations =>
    (∀ target, plan.subgoals.find? (fun item => item.key == operation.targetKey)
        = some target → SparesTarget plan.subgoals target operation)
      ∧ ∀ plan', reviseOne platform timestamp plan operation = .ok plan' →
        SparesBatch platform timestamp plan' operations

/-- The call is no batch, or one whose operations spare cancelled subgoals. -/
def Spares (platform : Platform) (plan : DurableTaskPlan) : PlanCall → Prop
  | .revise operations _ «at» => ∀ plan', normalizeDurableTaskPlan platform plan = .ok plan' →
      SparesBatch platform «at» plan' operations
  | _ => True

end OperatorRuntime.Task
