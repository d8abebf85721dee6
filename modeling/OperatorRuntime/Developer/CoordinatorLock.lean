/-
`#mutate` and `#acquireCoordinatorLock` of
`core/developer-runtime-ownership.ts`: the lock file under which the
ownership store reads, changes and writes its state.

A call of the lock is numbered, and its owner record carries the number
(`crypto.randomUUID`); it belongs to a process, and any number of calls of
any number of processes run at once. `open(file, 'wx')` creates an empty
file, the owner is written through the handle, into the file that was
created and not into whatever has the path by then. A call creates one file
at most, so the number of the call names the file too. Reading a file that
is empty or half written throws. Calls of the file system that fail for
other reasons are not modelled.
-/
import Mathlib.Logic.Function.Basic
import OperatorRuntime.ProcessInstance

namespace OperatorRuntime.CoordinatorLock

/-- A process: its identity, which no other process ever has. -/
def Process := { identity : ProcessInstanceIdentity // validProcessInstance identity = true }
deriving DecidableEq

structure Owner where
  id : Nat
  processInstance : Process
deriving DecidableEq

/-- The file at the lock path; no owner while it is empty or half
written. -/
structure LockFile where
  createdBy : Nat
  owner : Option Owner
deriving DecidableEq

def maxAttempts : Nat := 120

/-- What a call is about to do. -/
inductive Stage
  | idle
  | opening (attempt : Nat)
  | writing
  | reading (attempt : Nat)
  | inspecting (attempt : Nat) (owner : Owner)
  | removing (attempt : Nat) (owner : Owner)
  /-- The lock is acquired: `#read`, the mutator and the write run. -/
  | mutating
  | releasing
  | unlinking
  | ended
deriving DecidableEq

/-- Between acquiring and releasing the lock. -/
def Stage.acquired : Stage → Bool
  | .mutating | .releasing | .unlinking => true
  | _ => false

structure LockSystem where
  file : Option LockFile
  stages : Nat → Stage
  alive : Process → Bool

def LockSystem.initial : LockSystem :=
  { file := none, stages := fun _ => .idle, alive := fun _ => true }

inductive LockAct
  | call (c : Nat)
  /-- The next call of the file system. -/
  | fs (c : Nat)
  /-- `#inspect(pid)` answers. -/
  | inspect (c : Nat) (live : Option ProcessInstanceIdentity)
  /-- The mutation ends. -/
  | settle (c : Nat)
  | crash (p : Process)

/-- Whether the lock of an owner is removed after its process was
inspected. -/
def reclaimable (dateParse : DateParse) (owner : ProcessInstanceIdentity)
    (live : Option ProcessInstanceIdentity) : Bool :=
  0 < owner.pid && owner.pid ≤ maxSafeInteger
    && if validProcessInstance owner = true then !live.any (sameProcessInstance dateParse owner)
      else live.isNone

/-- The next round of the loop, or `throw` with `retryable: true`. -/
def nextAttempt (attempt : Nat) : Stage :=
  if attempt + 1 < maxAttempts then .opening (attempt + 1) else .ended

namespace LockSystem

variable (dateParse : DateParse) (processOf : Nat → Process)

def goto (s : LockSystem) (c : Nat) (stage : Stage) : LockSystem :=
  { s with stages := Function.update s.stages c stage }

/-- What an inspection answers is true and conclusive: it is the process
exactly while that lives. -/
def Truthful (s : LockSystem) (owner : Process) (live : Option ProcessInstanceIdentity) : Prop :=
  live.any (sameProcessInstance dateParse owner.val) = s.alive owner

instance (s : LockSystem) (owner : Process) (live : Option ProcessInstanceIdentity) :
    Decidable (s.Truthful dateParse owner live) :=
  inferInstanceAs (Decidable (_ = _))

/-- The next call of the file system. -/
def fsStep (s : LockSystem) (c : Nat) : Option LockSystem :=
  match s.stages c with
  | .opening attempt =>
    match s.file with
    | none => some ({ s with file := some { createdBy := c, owner := none } }.goto c .writing)
    | some _ => some (s.goto c (.reading attempt))
  | .writing =>
    let owner : Owner := { id := c, processInstance := processOf c }
    let file := s.file.map fun f => if f.createdBy = c then { f with owner := some owner } else f
    some ({ s with file }.goto c .mutating)
  | .reading attempt =>
    match s.file.bind LockFile.owner with
    | some owner => some (s.goto c (.inspecting attempt owner))
    | none => some (s.goto c (nextAttempt attempt))
  | .removing attempt _ => some ({ s with file := none }.goto c (nextAttempt attempt))
  | .releasing =>
    match s.file.bind LockFile.owner with
    | some owner => some (s.goto c (if owner.id = c then .unlinking else .ended))
    | none => some (s.goto c .ended)
  | .unlinking => some ({ s with file := none }.goto c .ended)
  | .idle | .inspecting _ _ | .mutating | .ended => none

def step (s : LockSystem) : LockAct → Option LockSystem
  | .call c =>
    if s.alive (processOf c) = true ∧ s.stages c = .idle then some (s.goto c (.opening 0)) else none
  | .fs c => if s.alive (processOf c) = true then s.fsStep processOf c else none
  | .inspect c live =>
    match s.stages c with
    | .inspecting attempt owner =>
      if s.alive (processOf c) = true ∧ s.Truthful dateParse owner.processInstance live then
        some (s.goto c (if reclaimable dateParse owner.processInstance.val live = true then
          .removing attempt owner else nextAttempt attempt))
      else none
    | _ => none
  | .settle c =>
    if s.alive (processOf c) = true ∧ s.stages c = .mutating then some (s.goto c .releasing)
    else none
  | .crash p => some { s with alive := Function.update s.alive p false }

end LockSystem

end OperatorRuntime.CoordinatorLock
