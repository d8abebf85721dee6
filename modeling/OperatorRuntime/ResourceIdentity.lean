/-
`resourceKeysConflict` of `core/resource-identity.ts`: when two resource
keys may not be held together. Keys form hierarchies under five
prefixes, one key stands for the whole filesystem, and keys of an older
schema are read as the key that replaced them.
-/
import OperatorRuntime.ProcessInstance

namespace OperatorRuntime

def startsWith (text literal : String) : Bool :=
  (after? literal text.toList).isSome

/-- A path segment `name:value` with a non-empty value. -/
def segmentValue? (name : String) (segment : List Char) : Option String :=
  match after? name segment with
  | some [] | none => none
  | some value => some (String.ofList value)

/-- The groups of
`/^browser:session:([^/]+)\/target:([^/]+)(?:\/frame:([^/]+))?$/`. -/
def legacyBrowserKey? (key : String) : Option (String × String × Option String) :=
  match key.toList.splitOn '/' with
  | [session, target] => do
    let instance' ← segmentValue? "browser:session:" session
    let target ← segmentValue? "target:" target
    some (instance', target, none)
  | [session, target, frame] => do
    let instance' ← segmentValue? "browser:session:" session
    let target ← segmentValue? "target:" target
    let frame ← segmentValue? "frame:" frame
    some (instance', target, some frame)
  | _ => none

def normalizeLegacyResourceKey (key : String) : String :=
  if startsWith key "workspace:" then "filesystem:any"
  else
    match legacyBrowserKey? key with
    | none => key
    | some (instance', target, frame) =>
      let targets := "browser:instance:" ++ instance' ++ "/targets"
      if target = "global" then targets
      else
        match frame with
        | none => targets ++ "/" ++ target
        | some frame => targets ++ "/" ++ target ++ "/frames/" ++ frame

def isFilesystemResource (key : String) : Bool :=
  key == "filesystem:any"
    || ["fs-path:", "fs-object:", "file:", "repo:", "workspace:"].any
      (startsWith key)

/-- `isHierarchyPrefix(parent, child)`. -/
def isHierarchyPrefixOf (parent child : List Char) : Bool :=
  if ['/'].isSuffixOf parent then parent.isPrefixOf child
  else (parent ++ ['/']).isPrefixOf child

def hierarchicalPrefixes : List String :=
  ["fs-path:", "browser:", "database:", "process:", "desktop:"]

/-- The loop over `hierarchicalPrefixes`: the first one that both keys
start with decides. -/
def hierarchyConflict (left right : String) : List String → Bool
  | [] => false
  | literal :: rest =>
    match after? literal left.toList, after? literal right.toList with
    | some a, some b => isHierarchyPrefixOf a b || isHierarchyPrefixOf b a
    | _, _ => hierarchyConflict left right rest

def normalizedKeysConflict (left right : String) : Bool :=
  left == right
    || (left == "filesystem:any" && isFilesystemResource right)
    || (right == "filesystem:any" && isFilesystemResource left)
    || hierarchyConflict left right hierarchicalPrefixes

def resourceKeysConflict (left right : String) : Bool :=
  normalizedKeysConflict (normalizeLegacyResourceKey left)
    (normalizeLegacyResourceKey right)

-- ===== symmetry

theorem hierarchyConflict_comm (left right : String) (literals : List String) :
    hierarchyConflict left right literals = hierarchyConflict right left literals := by
  induction literals with
  | nil => rfl
  | cons literal rest ih =>
    unfold hierarchyConflict
    cases after? literal left.toList with
    | none =>
      cases after? literal right.toList with
      | none => exact ih
      | some b => exact ih
    | some a =>
      cases after? literal right.toList with
      | none => exact ih
      | some b => exact Bool.or_comm _ _

theorem resourceKeysConflict_comm (left right : String) :
    resourceKeysConflict left right = resourceKeysConflict right left := by
  unfold resourceKeysConflict normalizedKeysConflict
  rw [hierarchyConflict_comm, BEq.comm]
  generalize (normalizeLegacyResourceKey right == normalizeLegacyResourceKey left) = same
  simp only [Bool.or_assoc, Bool.or_left_comm]

end OperatorRuntime
