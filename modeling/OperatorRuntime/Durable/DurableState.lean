/-
`core/durable-state.ts`: how a state file is read and replaced. A write
goes to a file of its own beside the path and takes the path's place by a
rename, or, for a path that must not exist yet, by a link that is followed
by the removal of the other name.

A call is a script over the directory, so a crash keeps a first part of
its steps. One directory is on one device, and nothing else changes it:
the device and the times of a file are left out, and a step fails only
for what it finds, but for a rename on Windows.
-/
import OperatorRuntime.Errors
import OperatorRuntime.Text
import OperatorRuntime.Lib.FileSystem
import OperatorRuntime.Lib.Script

namespace OperatorRuntime.DurableState

open Lib

abbrev Bytes := List UInt8

/-- `DurableStateOptions`; those that `validateOptions` refuses cannot be
built. -/
structure DurableStateOptions where
  maxBytes : PosSafe
  errorCode : ErrorCode
  invalidMessage : String
  nonempty : invalidMessage ≠ ""

inductive Thrown
  | state (error : OperatorError)
  | readRace (message : String)
  | errno (code : Errno)

abbrev Call := Script FileSystem Thrown

/-- A step that only looks. -/
def look {α : Type} (f : FileSystem → Except Errno α) : Call α := fun fs =>
  { states := [], answer := (f fs).mapError .errno }

/-- A step that changes the directory where it succeeds. -/
def change {α : Type} (f : FileSystem → Except Errno (FileSystem × α)) : Call α := fun fs =>
  match f fs with
  | .ok (fs', a) => { states := [fs'], answer := .ok a }
  | .error code => { states := [], answer := .error (.errno code) }

def throw {α : Type} (e : Thrown) : Call α := Script.lift (.error e)

/-- The file the handle was opened on, which is new, is written: a crash
leaves any first part of the content. -/
def writeFile (ino : Nat) (bytes : Bytes) : Call Unit := fun fs =>
  { states := (List.range (bytes.length + 1)).map fun n =>
      fs.setInode ino { kind := .file, bytes := bytes.take n }
    answer := .ok ⟨⟩ }

section
variable (options : DurableStateOptions) (windows : Bool) (file : String)

def invalid (detail : String) : Thrown :=
  .state { code := options.errorCode, message := options.invalidMessage ++ " " ++ detail }

def throwIf (bad : Prop) [Decidable bad] (e : Thrown) : Call Unit :=
  Script.lift (if bad then .error e else .ok ⟨⟩)

def sameFile (left right : Stats) : Prop :=
  (windows = true → left.ino ≠ 0 ∧ right.ino ≠ 0) ∧ left.ino = right.ino

instance (left right : Stats) : Decidable (sameFile windows left right) :=
  inferInstanceAs (Decidable (_ ∧ _))

def assertOpenedRegular (stat : Stats) (raceMessage : String) : Call Unit := do
  throwIf (stat.kind ≠ .file) (invalid options "Opened state path must be a regular file.")
  throwIf (stat.nlink ≠ 1) (.readRace raceMessage)
  throwIf (options.maxBytes.val < stat.size)
    (invalid options "State file exceeds the bounded size.")

def assertReadableRegular (stat : Stats) (raceMessage : String) : Call Unit := do
  throwIf (stat.kind ≠ .file)
    (invalid options "State path must be a regular file, not a link or special file.")
  throwIf (stat.nlink ≠ 1) (.readRace raceMessage)
  throwIf (options.maxBytes.val < stat.size)
    (invalid options "State file exceeds the bounded size.")

def assertStableRegular (stat : Stats) : Call Unit := do
  throwIf (stat.kind ≠ .file)
    (invalid options "State path must be a regular file, not a link or special file.")
  throwIf (stat.nlink ≠ 1) (invalid options "Hard-linked state files are not permitted.")
  throwIf (options.maxBytes.val < stat.size)
    (invalid options "State file exceeds the bounded size.")

-- ===== reading

/-- `fs.open(file, O_RDONLY | noFollow)` as the reader calls it. -/
def openRead : Call Nat := do
  let fs ← Script.read
  match fs.find? file with
  | none => throw (.readRace "State file changed while it was being opened.")
  | some ino =>
    if (fs.inodes ino).kind = .symbolicLink ∧ windows = false then
      throw (invalid options "Symbolic links are not permitted.")
    else pure ino

/-- `fs.lstat(file)` of a file that was there. -/
def lstatAgain : Call Stats := do
  match ← (look (FileSystem.lstat file)).attempt with
  | .error (.errno .enoent) => throw (.readRace "State file path changed while it was being read.")
  | .error e => throw e
  | .ok stat => pure stat

def readDurableStateBytesOnce : Call Bytes := do
  let initial ← look (FileSystem.lstat file)
  assertReadableRegular options initial
    "State file link topology changed while it was being read."
  let handle ← openRead options windows file
  let opened ← look fun fs => .ok (fs.stats handle)
  assertOpenedRegular options opened "State file changed while it was being opened."
  throwIf (¬ sameFile windows initial opened)
    (.readRace "State file changed while it was being opened.")
  let bytes ← look fun fs => .ok (fs.inodes handle).bytes
  throwIf (options.maxBytes.val < bytes.length)
    (invalid options "State file exceeds the bounded size.")
  let afterRead ← look fun fs => .ok (fs.stats handle)
  assertOpenedRegular options afterRead "State file changed while it was being read."
  throwIf (¬ sameFile windows opened afterRead ∨ opened.size ≠ afterRead.size)
    (.readRace "State file changed while it was being read.")
  let current ← lstatAgain file
  assertReadableRegular options current
    "State file link topology changed while it was being read."
  throwIf (¬ sameFile windows afterRead current)
    (.readRace "State file path changed while it was being read.")
  pure bytes

/-- What `readDurableStateBytes` throws when every attempt met a race. -/
def persistentRace (lastRace : String) : Call Bytes := do
  match ← (look (FileSystem.lstat file)).attempt with
  | .error (.errno .enoent) => throw (invalid options lastRace)
  | .error e => throw e
  | .ok persistent => do
    throwIf (persistent.kind ≠ .file)
      (invalid options "State path must be a regular file, not a link or special file.")
    throwIf (1 < persistent.nlink)
      (invalid options "Hard-linked state files are not permitted.")
    throw (invalid options lastRace)

def readAttempts : Nat → String → Call Bytes
  | 0, lastRace => persistentRace options file lastRace
  | attempts + 1, _ => do
    match ← (readDurableStateBytesOnce options windows file).attempt with
    | .ok bytes => pure bytes
    | .error (.readRace message) => readAttempts attempts message
    | .error e => throw e

/-- `TRANSIENT_RACE_DELAYS_MS.length`. -/
def transientRaceDelays : Nat := 6

def readDurableStateBytes : Call Bytes :=
  readAttempts options windows file (transientRaceDelays + 1)
    "State file changed while it was being read."

-- ===== writing

/-- The name of the file beside the path. -/
def tempName (pid : Nat) (uuid : String) : String :=
  file ++ "." ++ toString pid ++ "." ++ uuid ++ ".tmp"

def assertReplaceTarget : Call Unit := do
  match ← (look (FileSystem.lstat file)).attempt with
  | .error (.errno .enoent) => pure ⟨⟩
  | .error e => throw e
  | .ok stat => assertStableRegular options stat

/-- `fs.rm(temp, { force: true }).catch(() => undefined)`. -/
def removeTemp (temp : String) : Call Unit := do
  let _ ← (change (FileSystem.remove temp)).attempt
  pure ⟨⟩

/-- `retryDelaysMs.length` of `publishDurableReplacement`. -/
def renameRetries : Nat := 5

/-- What an attempt of `publishDurableReplacement` checks. -/
def assertStaged (temp : String) : Call Unit := do
  let staged ← look (FileSystem.lstat temp)
  assertStableRegular options staged
  assertReplaceTarget options file

/-- `publishDurableReplacement(temp, file, options)` from an attempt on;
`failures` are the errors of the renames that do not go through. -/
def publishDurableReplacement (temp : String) (attempt : Nat) : List Errno → Call Unit
  | [] => do
    assertStaged options file temp
    change (FileSystem.rename temp file)
  | code :: failures => do
    assertStaged options file temp
    if windows = true ∧ (code = .eperm ∨ code = .eacces ∨ code = .ebusy)
        ∧ attempt < renameRetries then
      publishDurableReplacement temp (attempt + 1) failures
    else throw (.errno code)

/-- The content is written to the temporary file. -/
def stage (temp : String) (bytes : Bytes) : Call Unit := do
  let handle ← change (FileSystem.create temp)
  writeFile handle bytes
  let staged ← look (FileSystem.lstat temp)
  assertStableRegular options staged
  throwIf (staged.size ≠ bytes.length)
    (invalid options "Staged state size did not match the serialized state.")

/-- What both calls ask of the file they have published. -/
def assertCommitted (bytes : Bytes) : Call Unit := do
  let committed ← look (FileSystem.lstat file)
  assertStableRegular options committed
  throwIf (committed.size ≠ bytes.length)
    (invalid options "Committed state size did not match the serialized state.")

def writeDurableStateBytes (temp : String) (failures : List Errno) (bytes : Bytes) : Call Unit := do
  throwIf (options.maxBytes.val < bytes.length)
    (invalid options "Serialized state exceeds the bounded size.")
  assertReplaceTarget options file
  match ← (do stage options temp bytes
              publishDurableReplacement options windows file temp 0 failures : Call Unit).attempt with
  | .error e => do
    removeTemp temp
    throw e
  | .ok _ => assertCommitted options file bytes

/-- The file must not be there. -/
def assertMissing : Call Unit := do
  match ← (look (FileSystem.lstat file)).attempt with
  | .error (.errno .enoent) => pure ⟨⟩
  | .error e => throw e
  | .ok existing => do
    assertStableRegular options existing
    throw (.errno .eexist)

def createDurableStateBytes (temp : String) (bytes : Bytes) : Call Unit := do
  throwIf (options.maxBytes.val < bytes.length)
    (invalid options "Serialized state exceeds the bounded size.")
  assertMissing options file
  match ← (do stage options temp bytes
              change (FileSystem.link temp file) : Call Unit).attempt with
  | .error e => do
    removeTemp temp
    throw e
  | .ok _ => do
    let outcome ← (do change (FileSystem.remove temp)
                      assertCommitted options file bytes : Call Unit).attempt
    removeTemp temp
    assertReplaceTarget options file
    Script.lift outcome

end

-- ===== runs

inductive Op
  | writeDurableStateBytes (failures : List Errno) (content : Bytes)
  | createDurableStateBytes (content : Bytes)

def Op.content : Op → Bytes
  | .writeDurableStateBytes _ content => content
  | .createDurableStateBytes content => content

/-- A call, the process and the UUID it draws, and, where the process
crashes in it, the number of its steps that are done. -/
structure Turn where
  op : Op
  pid : Nat
  uuid : String
  crash : Option Nat

/-- The directory, and what a reader of the path may find: the content of
the last completed call, or none, and those of the calls that crashed
since. -/
structure Machine where
  fs : FileSystem
  candidates : List (Option Bytes)

section
variable (options : DurableStateOptions) (windows : Bool) (file : String)

def Turn.call (turn : Turn) : Call Unit :=
  match turn.op with
  | .writeDurableStateBytes failures content =>
    writeDurableStateBytes options windows file (tempName file turn.pid turn.uuid) failures content
  | .createDurableStateBytes content =>
    createDurableStateBytes options file (tempName file turn.pid turn.uuid) content

/-- A call that ends or crashes. -/
def Turn.after (turn : Turn) (m : Machine) : Machine :=
  let trace := turn.call options windows file m.fs
  match turn.crash with
  | some n =>
    { fs := (turn.call options windows file).upTo n m.fs
      candidates := m.candidates ++ [some turn.op.content] }
  | none =>
    { fs := endOf m.fs trace.states
      candidates :=
        match trace.answer with
        | .ok _ => [some turn.op.content]
        | .error _ => m.candidates }

def step (m : Machine) (turn : Turn) : Option Machine :=
  some (turn.after options windows file m)

end

end OperatorRuntime.DurableState
