/-
`core/durable-state-lock.ts`: the lock file under which every durable
store reads, changes and writes its state.

# Processes

A process is at one call of the lock at a time: `withLocalFileTurn`
queues the calls of one process before they reach the file. Between two
file-system calls any other process may run, and a process may end at
any moment. It is named by its identity, which no other process ever
has.

# The file

`open(file, 'wx')` creates an empty file and fails when there is one.
The owner is then written through the handle, that is into the file that
was created and not into whatever has the path by then. A file that is
empty, half written or malformed has no owner, and reading one throws or
answers `null`; both end in another attempt. A token is a fresh UUID, so
the tokens are numbered in the order they are drawn.
-/
import Mathlib.Logic.Function.Basic
import OperatorRuntime.ProcessInstance

namespace OperatorRuntime.Lock

abbrev Process := ProcessInstanceIdentity

structure LockOwner where
  token : Nat
  processInstance : Process
deriving DecidableEq

structure LockFile where
  inode : Nat
  owner : Option LockOwner
deriving DecidableEq

/-- `ATTEMPTS`. -/
def maxAttempts : Nat := 100

/-- What a call is about to do. -/
inductive Stage
  | idle
  | opening (token attempt : Nat)
  | writing (token attempt inode : Nat)
  /-- The write threw; `contention` when its code is taken for one. -/
  | failedWrite (token attempt : Nat) (contention : Bool)
  | closing (token attempt : Nat)
  | inspecting (token attempt : Nat)
  | observing (token attempt : Nat) (previous : LockOwner)
  | rechecking (token attempt : Nat) (previous : LockOwner)
  | removing (token attempt : Nat) (previous : LockOwner)
  | callback (token : Nat)
  | releasing (token : Nat)
  | unlinking (token : Nat)
deriving DecidableEq

structure Proc where
  alive : Bool := true
  stage : Stage := .idle

/-- The lock file, the processes, and who drew each token. -/
structure LockSystem where
  file : Option LockFile
  procs : Process → Proc
  issued : List Process
  nextInode : Nat

def LockSystem.initial : LockSystem :=
  { file := none, procs := fun _ => {}, issued := [], nextInode := 0 }

/-- How a file-system call ends. -/
inductive Outcome
  | ok
  /-- It throws `EPERM` or `EACCES`. -/
  | denied
  /-- It throws anything else. -/
  | failed
  /-- It throws after it took effect. -/
  | late
deriving DecidableEq

/-- The call took effect. -/
def Outcome.effective : Outcome → Bool
  | .ok | .late => true
  | .denied | .failed => false

inductive LockAct
  /-- `withDurableStateLock` is called. -/
  | call (p : Process)
  /-- The next file-system call of `p`. -/
  | fs (p : Process) (outcome : Outcome)
  /-- `observeProcessInstance` answers. -/
  | observe (p : Process) (observation : ProcessInstanceObservation)
  /-- The callback settles. -/
  | settle (p : Process)
  | crash (p : Process)

namespace LockSystem

def goto (s : LockSystem) (p : Process) (stage : Stage) : LockSystem :=
  { s with procs := Function.update s.procs p { s.procs p with stage } }

/-- The next round of the loop, or `throw locked()`. -/
def nextAttempt (token attempt : Nat) : Stage :=
  if attempt + 1 < maxAttempts then .opening token (attempt + 1) else .idle

/-- `rm(file)` under an outcome. -/
def remove (s : LockSystem) (outcome : Outcome) : LockSystem :=
  if outcome.effective then { s with file := none } else s

/-- Write the owner into the file the handle is open on. -/
def writeOwner (s : LockSystem) (inode : Nat) (owner : LockOwner) : LockSystem :=
  { s with
    file := s.file.map fun f =>
      if f.inode = inode then { f with owner := some owner } else f }

/-- `lockOwner(file)` as far as it answers an owner. -/
def lockOwner? (s : LockSystem) : Option LockOwner :=
  s.file.bind (·.owner)

def fsStep (s : LockSystem) (p : Process) (outcome : Outcome) : Option LockSystem :=
  match (s.procs p).stage with
  | .opening token attempt =>
    match outcome, s.file with
    | .ok, none =>
      some (goto
        { s with
          file := some { inode := s.nextInode, owner := none }
          nextInode := s.nextInode + 1 }
        p (.writing token attempt s.nextInode))
    | .ok, some _ | .denied, _ => some (s.goto p (.inspecting token attempt))
    | .failed, _ => some (s.goto p .idle)
    | .late, _ => none
  | .writing token attempt inode =>
    let written := s.writeOwner inode { token, processInstance := p }
    match outcome with
    | .ok => some (written.goto p (.closing token attempt))
    | .denied => some (s.goto p (.failedWrite token attempt true))
    | .failed => some (s.goto p (.failedWrite token attempt false))
    | .late => some (written.goto p (.failedWrite token attempt false))
  | .failedWrite token attempt contention =>
    some ((s.remove outcome).goto p (if contention then .inspecting token attempt else .idle))
  | .closing token attempt =>
    match outcome with
    | .ok => some (s.goto p (.callback token))
    | .denied => some (s.goto p (.inspecting token attempt))
    | .failed | .late => some (s.goto p .idle)
  | .inspecting token attempt =>
    match outcome, s.lockOwner? with
    | .ok, some previous =>
      if localPidObservationAdmissible (some previous.processInstance) p
      then some (s.goto p (.observing token attempt previous))
      else some (s.goto p (nextAttempt token attempt))
    | _, _ => some (s.goto p (nextAttempt token attempt))
  | .rechecking token attempt previous =>
    match outcome, s.lockOwner? with
    | .ok, some again =>
      if again.token = previous.token then
        some (s.goto p (.removing token attempt previous))
      else some (s.goto p (nextAttempt token attempt))
    | _, _ => some (s.goto p (nextAttempt token attempt))
  | .removing token attempt _ =>
    some ((s.remove outcome).goto p (nextAttempt token attempt))
  | .releasing token =>
    match outcome, s.lockOwner? with
    | .ok, some current =>
      if current.token = token then some (s.goto p (.unlinking token))
      else some (s.goto p .idle)
    | _, _ => some (s.goto p .idle)
  | .unlinking _ => some ((s.remove outcome).goto p .idle)
  | .idle | .observing .. | .callback .. => none

/-- An observation is true of a process: what it reports as gone has
ended. -/
def truthful (dateParse : DateParse) (s : LockSystem) (process : Process) :
    ProcessInstanceObservation → Bool
  | .dead => !(s.procs process).alive
  | .live (some identity) =>
    sameProcessInstance dateParse process identity
      || !(s.procs process).alive
  | .live none | .unknown => true

def step (dateParse : DateParse) (s : LockSystem) : LockAct → Option LockSystem
  | .call p =>
    if (s.procs p).alive ∧ (s.procs p).stage = .idle then
      some (goto { s with issued := s.issued ++ [p] } p (.opening s.issued.length 0))
    else none
  | .fs p outcome =>
    if (s.procs p).alive then s.fsStep p outcome else none
  | .observe p observation =>
    match (s.procs p).alive, (s.procs p).stage with
    | true, .observing token attempt previous =>
      if s.truthful dateParse previous.processInstance observation then
        if processInstanceDefinitelyStale dateParse
            (some previous.processInstance) observation then
          some (s.goto p (.rechecking token attempt previous))
        else some (s.goto p (nextAttempt token attempt))
      else none
    | _, _ => none
  | .settle p =>
    match (s.procs p).alive, (s.procs p).stage with
    | true, .callback token => some (s.goto p (.releasing token))
    | _, _ => none
  | .crash p =>
    if (s.procs p).alive then
      some { s with
        procs := Function.update s.procs p
          { s.procs p with alive := false } }
    else none

end LockSystem

end OperatorRuntime.Lock
