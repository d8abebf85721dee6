/-
`core/world-model.ts`: entities with the facts that sources claim of them, the
relations between entities, and the query that follows these, `trace`.

The numbers that confidences are carry the operations the code applies to them
and no laws, so the floating-point numbers are an instance. `Math.round`, the
text of a number and the collation are parameters. A time is its value, which
its text gives back; a number that is not finite fails every comparison with
its bounds.
-/
import Mathlib.Data.List.Sort
import Mathlib.Data.Rat.Defs
import OperatorRuntime.Identifiers
import OperatorRuntime.Lib.BreadthFirst
import OperatorRuntime.ProcessInstance
import OperatorRuntime.StateFile

namespace OperatorRuntime.World

open Lib

def maxEntities : Nat := 20000
def maxRelations : Nat := 50000
def maxFactsPerEntity : Nat := 200
def maxClaimsPerFact : Nat := 20
def maxFactBytes : Nat := 32 * 1024
def maxWorldHistory : Nat := 20000

-- ===== records

inductive WorldDomain
  | browser
  | application
  | filesystem
  | git
  | database
  | process
  | device
  | project
  | organization
  | other
deriving DecidableEq

/-- `/^[A-Za-z0-9][A-Za-z0-9._:/@-]{0,511}$/`. -/
def Context := { text : String // isKeyText 512 text = true }
deriving DecidableEq

/-- `/^[A-Za-z0-9][A-Za-z0-9._:-]{0,127}$/`. -/
def isWorldKey (text : String) : Bool :=
  match text.toList with
  | [] => false
  | c :: cs =>
    isAlnum c && cs.length < 128
      && cs.all fun c => isAlnum c || c == '.' || c == '_' || c == ':' || c == '-'

def Key := { text : String // isWorldKey text = true }
deriving DecidableEq

variable {F : Type}

structure WorldClaim (F : Type) where
  id : Uuid
  source : Context
  domain : WorldDomain
  evidenceDigest : Hex64
  value : Json
  valueDigest : Hex64
  confidence : F
  observedAt : Instant
  expiresAt : Instant

structure WorldFact (F : Type) where
  key : Key
  claims : List (WorldClaim F)

structure WorldEntity (F : Type) where
  id : Uuid
  key : Context
  type : Key
  scopeKey : Context
  label : String
  facts : List (WorldFact F)
  createdAt : Instant
  updatedAt : Instant

structure WorldRelation (F : Type) where
  id : Uuid
  fromKey : Context
  toKey : Context
  type : Key
  source : Context
  domain : WorldDomain
  evidenceDigest : Hex64
  confidence : F
  observedAt : Instant
  expiresAt : Instant

structure WorldTransition where
  id : Uuid
  entityKey : Context
  factKey : Key
  source : Context
  domain : WorldDomain
  fromValueDigest : Option Hex64
  toValueDigest : Hex64
  evidenceDigest : Hex64
  observedAt : Instant

structure WorldModelState (F : Type) where
  entities : List (WorldEntity F)
  relations : List (WorldRelation F)
  history : List WorldTransition

structure Platform (F : Type) where
  sha256 : String → Hex64
  localeCompare : String → String → Int
  round : F → F
  numberText : F → String

-- ===== validation

def inputInvalid {α : Type} (message : String) : Result α :=
  fail .worldInputInvalid message

def boundedContext (input label : String) : Result Context :=
  if h : isKeyText 512 input = true then .ok ⟨input, h⟩ else inputInvalid (label ++ " is invalid.")

def boundedKey (input label : String) : Result Key :=
  if h : isWorldKey input = true then .ok ⟨input, h⟩ else inputInvalid (label ++ " is invalid.")

def boundedText (input : String) (max : Nat) (label : String) : Result String :=
  if 1 ≤ Json.unitLength input ∧ Json.unitLength input ≤ max
      ∧ includesChar input '\x00' = false then .ok input
  else inputInvalid (label ++ " is invalid.")

def boundedInteger (input : Number) (min max : Nat) (label : String) : Result Nat :=
  match input with
  | .int n =>
    if min ≤ n ∧ n ≤ max then .ok n.toNat else inputInvalid (label ++ " is invalid.")
  | .other => inputInvalid (label ++ " is invalid.")

section
variable [OfScientific F] [Mul F] [Div F] [LE F] [DecidableLE F]

/-- Three decimals of a number from 0 to 1. -/
def boundedConfidence (platform : Platform F) (value : F) (label : String) :
    Result F :=
  if 0.0 ≤ value ∧ value ≤ 1.0 then .ok (platform.round (value * 1000.0) / 1000.0)
  else inputInvalid (label ++ " must be from 0 to 1.")

end

def worldValueDigest (platform : Platform F) (value : Json) : Result Hex64 :=
  if maxFactBytes < value.stringify.utf8ByteSize then
    inputInvalid "World fact value is not bounded JSON."
  else .ok (platform.sha256 value.stringify)

-- ===== secrets

def occurs (word : String) (text : List Char) : Bool :=
  text.tails.any fun rest => word.toList.isPrefixOf rest

/-- A character `.` stands for. -/
def isDot (c : Char) : Bool :=
  c.toNat < 0x10000 && c != '\n' && c != '\r' && c.toNat != 0x2028 && c.toNat != 0x2029

/-- `first.?second`. -/
def occursApart (first second : String) (text : List Char) : Bool :=
  text.tails.any fun rest =>
    first.toList.isPrefixOf rest && match rest.drop first.length with
        | [] => false
        | c :: cs =>
          second.toList.isPrefixOf (c :: cs) || (isDot c && second.toList.isPrefixOf cs)

/-- `SECRET_KEY`. -/
def isSecretKey (key : String) : Bool :=
  let text := key.toList.map Char.toLower
  ["pass", "secret", "token", "authorization", "cookie", "credential"].any
      (fun word => occurs word text)
    || occursApart "private" "key" text || occursApart "api" "key" text

-- ===== stored states

def corrupt {α : Type} (message : String) : Result α :=
  fail .worldModelCorrupt ("World model is invalid. " ++ message)

section
variable [OfScientific F] [Mul F] [Div F] [LE F] [DecidableLE F]

def validateClaim (platform : Platform F) (claim : WorldClaim F) : Result Unit := do
  let digest ← worldValueDigest platform claim.value
  if digest ≠ claim.valueDigest then corrupt "Claim value digest mismatch."
  else
    let _ ← boundedConfidence platform claim.confidence "claim confidence"

def validateFact (platform : Platform F) (fact : WorldFact F) : Result Unit :=
  if isSecretKey fact.key.val = true ∨ maxClaimsPerFact < fact.claims.length then
    corrupt "Stored fact is invalid."
  else fact.claims.forM (validateClaim platform)

def validateEntities (platform : Platform F) (entityKeys : List Context) :
    List (WorldEntity F) → Result Unit
  | [] => .ok ()
  | entity :: entities => do
    let _ ← boundedText entity.label 4096 "entity label"
    if entity.key ∈ entityKeys then corrupt "Entity keys must be unique."
    else if maxFactsPerEntity < entity.facts.length then corrupt "Entity facts are invalid."
    else
      entity.facts.forM (validateFact platform)
      validateEntities platform (entity.key :: entityKeys) entities

/-- What `validateState` checks of a state beyond the types of its parts. -/
def validateState (platform : Platform F) (state : WorldModelState F) : Result Unit :=
  if maxEntities < state.entities.length ∨ maxRelations < state.relations.length then
    corrupt "State shape is invalid."
  else if maxWorldHistory < state.history.length then corrupt "World history is invalid."
  else do
    validateEntities platform [] state.entities
    state.relations.forM fun relation => do
      let _ ← boundedConfidence platform relation.confidence "relation confidence"

/-- `#read()`; there may be no file. -/
def readState (platform : Platform F) (file : Option (WorldModelState F)) :
    Result (WorldModelState F) :=
  match file with
  | none => .ok { entities := [], relations := [], history := [] }
  | some state => do
    validateState platform state
    return state

end

-- ===== claims

/-- `Date.parse(expiresAt) > now`. -/
def isLive (now : ClockReading) (expiresAt : Instant) : Bool :=
  match now with
  | some now => now.val < expiresAt.val
  | none => false

-- ===== trace

structure TraceInput (F : Type) where
  fromKey : String
  toKey : Option String
  targetType : Option String
  maxDepth : Option Number
  minConfidence : Option F

/-- The query after its normalization. -/
structure TraceQuery (F : Type) where
  fromKey : Context
  toKey : Option Context
  targetType : Option Key
  maxDepth : Nat
  minConfidence : F

structure WorldPath (F : Type) where
  entityKeys : List Context
  relations : List (WorldRelation F)

section
variable [LE F] [DecidableLE F]

def validRelations (state : WorldModelState F) (now : ClockReading) (minConfidence : F) :
    List (WorldRelation F) :=
  state.relations.filter fun relation =>
    isLive now relation.expiresAt && minConfidence ≤ relation.confidence

/-- `current.key` ends the search. -/
def isTarget (state : WorldModelState F) (query : TraceQuery F) (key : Context) : Bool :=
  key ≠ query.fromKey && (query.toKey = some key
      || query.targetType.any fun targetType =>
        (state.entities.find? fun entity => entity.key == key).any fun entity =>
          entity.type = targetType)

def tracePath (state : WorldModelState F) (now : ClockReading) (query : TraceQuery F) :
    Option (WorldPath F) :=
  if state.entities.any (fun entity => entity.key = query.fromKey) = true then
    let relations := validRelations state now query.minConfidence
    (BreadthFirst.search WorldRelation.fromKey WorldRelation.toKey (isTarget state query)
      query.maxDepth relations (relations.length + 1) [⟨query.fromKey, [query.fromKey], []⟩]
      [query.fromKey]).map fun current =>
        { entityKeys := current.keys, relations := current.edges }
  else none

variable [OfScientific F] [Mul F] [Div F]

def traceQuery (platform : Platform F) (input : TraceInput F) :
    Result (TraceQuery F) := do
  let fromKey ← boundedContext input.fromKey "fromKey"
  let toKey ← input.toKey.mapM fun key => boundedContext key "toKey"
  let targetType ← input.targetType.mapM fun type => boundedKey type "targetType"
  rejectIf (toKey = none ∧ targetType = none) .worldQueryInvalid
    "trace requires toKey or targetType."
  let maxDepth ← boundedInteger (input.maxDepth.getD (.int 6)) 1 12 "maxDepth"
  let minConfidence ← boundedConfidence platform (input.minConfidence.getD 0.5) "minConfidence"
  return { fromKey, toKey, targetType, maxDepth, minConfidence }

def trace (platform : Platform F) (file : Option (WorldModelState F)) (now : ClockReading)
    (input : TraceInput F) : Result (Option (WorldPath F)) := do
  let state ← readState platform file
  let query ← traceQuery platform input
  return tracePath state now query

end

-- ===== exact fractions

/-- The text of a fraction from 0 to 1 with three decimals. -/
def decimalText (value : Rat) : String :=
  if value.den = 1 then toString value.num
  else
    let digits := (padded 3 (value * 1000).num.toNat).toList.reverse.dropWhile fun c => c == '0'
    "0." ++ String.ofList digits.reverse

/-- Fractions as numbers, texts in the order of their code units. -/
def plain : Platform Rat where
  sha256 := sha256Utf8
  localeCompare a b := if Json.keyLe a b = true then (if a = b then 0 else -1) else 1
  round value := (value + 1 / 2).floor
  numberText := decimalText

end OperatorRuntime.World
