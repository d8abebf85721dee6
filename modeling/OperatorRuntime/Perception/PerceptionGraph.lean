/-
`core/perception-graph.ts`: what several channels perceived of the controls
of a scene, kept as claims at nodes. One batch reads, changes and writes the
file in one turn under a lock, so batches run one after the other.

Numbers are exact fractions; those that are not finite are `none`. Where a
node is found it is the place of the node in the state, as the code has a
reference to it. The collation, the lower case of the locale and whether a
state is small enough for its file are parameters.
-/
import Mathlib.Algebra.Order.Ring.Unbundled.Rat
import Mathlib.Data.List.Sort
import Mathlib.Data.Rat.Defs
import OperatorRuntime.Json
import OperatorRuntime.Identifiers
import OperatorRuntime.ProcessInstance
import OperatorRuntime.StateFile

namespace OperatorRuntime.Perception

def maxNodes : Nat := 20000
def maxClaims : Nat := 12
def maxTtl : Nat := 24 * 60 * 60000
def minTtl : Nat := 1000

/-- A number; `none` is not finite. -/
abbrev Numeral := Option Rat

-- ===== coordinates

inductive CoordinateSpace
  | nativeScreen
  | windowClient
  | browserViewport
  | cssPixel
  | captureImage
  | resizedImage
  | roiLocal
deriving DecidableEq

structure CoordinateTransform where
  «from» : CoordinateSpace
  «to» : CoordinateSpace
  originX : Numeral
  originY : Numeral
  scaleX : Numeral
  scaleY : Numeral
  sourceWidth : Option Numeral
  sourceHeight : Option Numeral
  targetWidth : Option Numeral
  targetHeight : Option Numeral
  generation : String
  provenance : String
deriving DecidableEq

def coordinateInvalid {α : Type} (message : String) : Result α :=
  fail .coordinateTransformInvalid message

/-- `finite(input, label)` of `core/coordinate-transform.ts`. -/
def finite (input : Numeral) (label : String) : Result Rat :=
  match input with
  | some value =>
    if value ≤ 1000000000 ∧ -1000000000 ≤ value then .ok value
    else coordinateInvalid (label ++ " is invalid.")
  | none => coordinateInvalid (label ++ " is invalid.")

def positive (input : Numeral) (label : String) : Result Rat := do
  let value ← finite input label
  rejectIf (value ≤ 0) .coordinateTransformInvalid (label ++ " must be positive.")
  return value

/-- `input` as a text of one to `max` code units without a NUL. -/
def isBounded (input : String) (max : Nat) : Bool :=
  1 ≤ Json.unitLength input && Json.unitLength input ≤ max && !includesChar input '\x00'

/-- `bounded` of `core/coordinate-transform.ts`. -/
def boundedCoordinate (input : String) (max : Nat) (label : String) : Result String :=
  if isBounded input max = true then .ok input else coordinateInvalid (label ++ " is invalid.")

/-- `normalizeCoordinateTransform(input)`, which answers what it is given. -/
def normalizeCoordinateTransform (input : CoordinateTransform) :
    Result CoordinateTransform := do
  let _ ← finite input.originX "originX"
  let _ ← finite input.originY "originY"
  let _ ← positive input.scaleX "scaleX"
  let _ ← positive input.scaleY "scaleY"
  let _ ← input.sourceWidth.mapM fun width => positive width "sourceWidth"
  let _ ← input.sourceHeight.mapM fun height => positive height "sourceHeight"
  let _ ← input.targetWidth.mapM fun width => positive width "targetWidth"
  let _ ← input.targetHeight.mapM fun height => positive height "targetHeight"
  let _ ← boundedCoordinate input.generation 256 "generation"
  let _ ← boundedCoordinate input.provenance 512 "provenance"
  return input

-- ===== records

inductive PerceptionChannel
  | dom
  | accessibility
  | uia
  | visual
  | application
  | runtime
deriving DecidableEq

def PerceptionChannel.text : PerceptionChannel → String
  | .dom => "dom"
  | .accessibility => "accessibility"
  | .uia => "uia"
  | .visual => "visual"
  | .application => "application"
  | .runtime => "runtime"

structure PerceptionBounds where
  x : Rat
  y : Rat
  width : Rat
  height : Rat
deriving DecidableEq

structure BoundsInput where
  x : Numeral
  y : Numeral
  width : Numeral
  height : Numeral

structure PerceptionObservation where
  sceneKey : String
  channel : String
  source : String
  semanticId : Option String
  role : Option String
  name : Option String
  text : Option String
  bounds : Option BoundsInput
  state : Option (List (String × Json))
  confidence : Numeral
  ttlMs : Option Number
  evidenceDigest : String
  correlationKey : Option String
  coordinates : Option CoordinateTransform

structure PerceptionClaim where
  id : Uuid
  channel : PerceptionChannel
  source : String
  role : Option String
  name : Option String
  text : Option String
  bounds : Option PerceptionBounds
  state : List (String × Json)
  confidence : Rat
  evidenceDigest : Hex64
  correlationKey : String
  coordinates : Option CoordinateTransform
  observedAt : Instant
  expiresAt : Instant

structure PerceptionNode where
  id : Uuid
  sceneKey : String
  semanticId : Option String
  claims : List PerceptionClaim
  createdAt : Instant
  updatedAt : Instant

structure PerceptionState where
  nodes : List PerceptionNode

structure Platform where
  localeCompare : String → String → Int
  toLocaleLowerCase : String → String
  fits : PerceptionState → Bool

-- ===== normalization

def inputInvalid {α : Type} (message : String) : Result α :=
  fail .perceptionInputInvalid message

def bounded (input : String) (max : Nat) (label : String) : Result String :=
  if isBounded input max = true then .ok input else inputInvalid (label ++ " is invalid.")

def optional (input : Option String) (max : Nat) (label : String) :
    Result (Option String) :=
  input.mapM fun text => bounded text max label

def integer (input : Number) (min max : Nat) (label : String) : Result Nat :=
  match input with
  | .int n =>
    if min ≤ n ∧ n ≤ max then .ok n.toNat else inputInvalid (label ++ " is invalid.")
  | .other => inputInvalid (label ++ " is invalid.")

def confidence (input : Numeral) : Result Rat :=
  match input with
  | some value =>
    if 0 ≤ value ∧ value ≤ 1 then .ok value
    else inputInvalid "confidence must be between 0 and 1."
  | none => inputInvalid "confidence must be between 0 and 1."

def normalizedBounds (input : BoundsInput) : Result PerceptionBounds :=
  match input.x, input.y, input.width, input.height with
  | some x, some y, some width, some height =>
    if width ≤ 0 ∨ height ≤ 0 ∨ 100000 < width ∨ 100000 < height then
      inputInvalid "Perception bounds are invalid."
    else .ok { x, y, width, height }
  | _, _, _, _ => inputInvalid "Perception bounds are invalid."

/-- Whether `word` stands in a text, whatever the case of the text. -/
def mentions (word : String) (text : List Char) : Bool :=
  text.tails.any fun rest => word.toList.isPrefixOf (rest.map Char.toLower)

/-- One character of a regular expression's `.`: a code unit that ends no
line. -/
def isDot (c : Char) : Bool :=
  c.toNat < 0x10000 && c != '\n' && c != '\x0d' && c != '\u2028' && c != '\u2029'

/-- `/word.?key/i`. -/
def mentionsKey (word : String) (text : List Char) : Bool :=
  text.tails.any fun rest =>
    word.toList.isPrefixOf (rest.map Char.toLower) && match rest.drop word.length with
        | [] => false
        | c :: cs => "key".toList.isPrefixOf ((c :: cs).map Char.toLower)
            || isDot c && "key".toList.isPrefixOf (cs.map Char.toLower)

/-- `SECRET_KEY`. -/
def isSecretKey (key : String) : Bool :=
  ["pass", "secret", "token", "authorization", "cookie", "credential"].any
      (fun word => mentions word key.toList)
    || mentionsKey "private" key.toList || mentionsKey "api" key.toList

def isScalar : Json → Bool
  | .null | .bool _ | .num _ | .str _ => true
  | .arr _ | .obj _ => false

def checkStateEntry (entry : String × Json) : Result Unit := do
  rejectIf (isSecretKey entry.1 = true) .perceptionSecretRejected
    "Secret-bearing perception state is rejected."
  rejectIf (isScalar entry.2 = false) .perceptionInputInvalid
    "Perception state values must be scalar."

def evidenceDigest (input : String) : Result Hex64 :=
  match hex64? input with
  | some digest => .ok digest
  | none => inputInvalid "evidenceDigest must be SHA-256."

def perceptionChannel (input : String) : Result PerceptionChannel :=
  match [PerceptionChannel.dom, .accessibility, .uia, .visual, .application, .runtime].find?
      fun channel => channel.text == input with
  | some channel => .ok channel
  | none => inputInvalid "Perception channel is invalid."

structure NormalizedObservation where
  sceneKey : String
  channel : PerceptionChannel
  source : String
  semanticId : Option String
  role : Option String
  name : Option String
  text : Option String
  bounds : Option PerceptionBounds
  state : List (String × Json)
  confidence : Rat
  ttlMs : Nat
  evidenceDigest : Hex64
  correlationKey : String
  coordinates : Option CoordinateTransform

def normalizeObservation (input : PerceptionObservation) :
    Result NormalizedObservation := do
  let state := input.state.getD []
  state.forM checkStateEntry
  let evidenceDigest ← evidenceDigest input.evidenceDigest
  let channel ← perceptionChannel input.channel
  let ttlMs ← integer (input.ttlMs.getD (.int 30000)) minTtl maxTtl "ttlMs"
  return {
    sceneKey := ← bounded input.sceneKey 1024 "sceneKey"
    channel
    source := ← bounded input.source 512 "source"
    semanticId := ← optional input.semanticId 512 "semanticId"
    role := ← optional input.role 256 "role"
    name := ← optional input.name 1024 "name"
    text := ← optional input.text 4096 "text"
    bounds := ← input.bounds.mapM normalizedBounds
    state
    confidence := ← confidence input.confidence
    ttlMs
    evidenceDigest
    correlationKey := (← optional input.correlationKey 512 "correlationKey").getD
      (channel.text ++ ":" ++ input.source ++ ":" ++ evidenceDigest.val)
    coordinates := ← input.coordinates.mapM normalizeCoordinateTransform }

-- ===== similarity

def trim (text : List Char) : List Char :=
  ((text.dropWhile isBlank).reverse.dropWhile isBlank).reverse

/-- `replace(/\s+/g, ' ')`; `inBlank` while a run of white space goes on. -/
def collapse (inBlank : Bool) : List Char → List Char
  | [] => []
  | c :: cs =>
    if isBlank c = true then (if inBlank = true then [] else [' ']) ++ collapse true cs
    else c :: collapse false cs

def normalizeText (platform : Platform) (value : String) : List Char :=
  collapse false (platform.toLocaleLowerCase (String.ofList (trim value.toList))).toList

/-- `a && b && sameText(a, b)`. -/
def sameText (platform : Platform) (a b : Option String) : Bool :=
  match a, b with
  | some a, some b => normalizeText platform a == normalizeText platform b
  | _, _ => false

def intersectionOverUnion (a b : PerceptionBounds) : Rat :=
  let left := max a.x b.x
  let top := max a.y b.y
  let right := min (a.x + a.width) (b.x + b.width)
  let bottom := min (a.y + a.height) (b.y + b.height)
  let intersection := max 0 (right - left) * max 0 (bottom - top)
  let union := a.width * a.height + b.width * b.height - intersection
  if union ≤ 0 then 0 else intersection / union

def overlap (recent : Option PerceptionClaim) (observation : NormalizedObservation) : Option Rat :=
  match recent.bind PerceptionClaim.bounds, observation.bounds with
  | some a, some b => some (intersectionOverUnion a b)
  | _, _ => none

def score (platform : Platform) (observation : NormalizedObservation) (node : PerceptionNode) : Rat :=
  let recent := node.claims.head?
  let overlap := overlap recent observation
  if overlap.any (fun value => value < 1 / 10) = true then 0
  else
    (if sameText platform (recent.bind PerceptionClaim.role) observation.role = true then 1 / 4 else 0)
      + (if sameText platform (recent.bind PerceptionClaim.name) observation.name = true then 7 / 20
        else 0)
      + (if sameText platform (recent.bind PerceptionClaim.text) observation.text = true then 1 / 5
        else 0)
      + (overlap.map fun value => 2 / 5 * value).getD 0

/-- The places of the nodes of the scene that are alike enough, the most
alike first, with their scores. -/
def candidates (platform : Platform) (state : PerceptionState) (observation : NormalizedObservation) :
    List (Nat × Rat) :=
  (((state.nodes.zipIdx.filter fun item => item.1.sceneKey == observation.sceneKey).map
    fun item => (item.2, score platform observation item.1)).filter
      fun item => 11 / 20 ≤ item.2).insertionSort fun a b => b.2 ≤ a.2

def resolveNode (platform : Platform) (state : PerceptionState)
    (observation : NormalizedObservation) : Option Nat :=
  let semantic := state.nodes.findIdx? fun node =>
    observation.semanticId.isSome && node.sceneKey == observation.sceneKey
      && node.semanticId == observation.semanticId
  match semantic with
  | some i => some i
  | none =>
    match candidates platform state observation with
    | [only] => some only.1
    | first :: second :: _ => if 3 / 20 ≤ first.2 - second.2 then some first.1 else none
    | [] => none

-- ===== observations

/-- The identifiers `randomUUID` gives while one observation is applied. -/
structure Drawn where
  nodeId : Uuid
  claimId : Uuid
deriving DecidableEq

def claimOf (observation : NormalizedObservation) (id : Uuid) (observedAt expiresAt : Instant) :
    PerceptionClaim where
  id
  channel := observation.channel
  source := observation.source
  role := observation.role
  name := observation.name
  text := observation.text
  bounds := observation.bounds
  state := observation.state
  confidence := observation.confidence
  evidenceDigest := observation.evidenceDigest
  correlationKey := observation.correlationKey
  coordinates := observation.coordinates
  observedAt
  expiresAt

/-- The claims of a node with a new claim in the place of the one that has its
correlation key, the latest first, and no more than are kept. -/
def keepClaim (platform : Platform) (claims : List PerceptionClaim) (claim : PerceptionClaim) :
    List PerceptionClaim :=
  (((claims.eraseP fun existing => existing.correlationKey == claim.correlationKey) ++ [claim]).insertionSort
    fun a b => platform.localeCompare b.observedAt.isoText a.observedAt.isoText ≤ 0).take maxClaims

def attach (platform : Platform) (observation : NormalizedObservation) (claim : PerceptionClaim)
    (node : PerceptionNode) : PerceptionNode :=
  { node with
    semanticId := node.semanticId.orElse fun _ => observation.semanticId
    claims := keepClaim platform node.claims claim
    updatedAt := claim.observedAt }

/-- `applyObservation(state, normalized, now)`, with the place of the node it
answers. -/
def applyObservation (platform : Platform) (now : ClockReading) (state : PerceptionState)
    (observation : NormalizedObservation × Drawn) : Result (PerceptionState × Nat) := do
  match resolveNode platform state observation.1 with
  | some place =>
    let observedAt ← toISOString now
    let expiresAt ← observedAt.later observation.1.ttlMs
    let claim := claimOf observation.1 observation.2.claimId observedAt expiresAt
    return ({ nodes := state.nodes.modify place (attach platform observation.1 claim) }, place)
  | none =>
    rejectIf (maxNodes ≤ state.nodes.length) .perceptionLimit "Perception node limit reached."
    let observedAt ← toISOString now
    let expiresAt ← observedAt.later observation.1.ttlMs
    let claim := claimOf observation.1 observation.2.claimId observedAt expiresAt
    let node : PerceptionNode :=
      { id := observation.2.nodeId
        sceneKey := observation.1.sceneKey
        semanticId := observation.1.semanticId
        claims := []
        createdAt := observedAt
        updatedAt := observedAt }
    return ({ nodes := state.nodes ++ [attach platform observation.1 claim node] },
      state.nodes.length)

/-- Whether a claim expires after `now`; nothing is later than an invalid
date. -/
def unexpired (now : ClockReading) (claim : PerceptionClaim) : Bool :=
  now.any fun at' => at'.val < claim.expiresAt.val

def prune (state : PerceptionState) (now : ClockReading) : PerceptionState :=
  let pruned := state.nodes.map fun node => { node with claims := node.claims.filter (unexpired now) }
  { nodes := pruned.filter fun node => !node.claims.isEmpty }

-- ===== state

def validateClaim (claim : PerceptionClaim) : Result Unit := do
  let _ ← bounded claim.correlationKey 512 "correlationKey"
  let _ ← claim.coordinates.mapM normalizeCoordinateTransform
  let _ ← confidence (some claim.confidence)

def validateNode (node : PerceptionNode) : Result Unit := do
  let _ ← bounded node.sceneKey 1024 "sceneKey"
  let _ ← node.semanticId.mapM fun semanticId => bounded semanticId 512 "semanticId"
  rejectIf (maxClaims < node.claims.length) .perceptionStateCorrupt "Perception claims are invalid."
  node.claims.forM validateClaim

/-- `validateState(state)`, which answers the state it is given. -/
def validateState (state : PerceptionState) : Result PerceptionState := do
  rejectIf (maxNodes < state.nodes.length) .perceptionStateCorrupt
    "Perception state shape is invalid."
  state.nodes.forM validateNode
  return state

/-- `#write(state)`: the state that is then in the file. -/
def write (platform : Platform) (state : PerceptionState) : Result PerceptionState := do
  let state ← validateState state
  rejectIf (platform.fits state = false) .perceptionStateCorrupt "Perception graph is invalid."
  return state

-- ===== calls

/-- `state.nodes.sort(…)`. -/
def nodeLe (platform : Platform) (a b : PerceptionNode) : Bool :=
  let byScene := platform.localeCompare a.sceneKey b.sceneKey
  (if byScene ≠ 0 then byScene else platform.localeCompare a.id.val b.id.val) ≤ 0

/-- The observations of a batch, applied one after the other; the places of
the nodes they were applied to. -/
def applyAll (platform : Platform) (now : ClockReading) (state : PerceptionState) :
    List (NormalizedObservation × Drawn) → Result (PerceptionState × List Nat)
  | [] => return (state, [])
  | observation :: rest => do
    let (state, place) ← applyObservation platform now state observation
    let (state, places) ← applyAll platform now state rest
    return (state, place :: places)

/-- `normalizeObservation` of an observation that comes with its identifiers. -/
def normalizeDrawn (input : PerceptionObservation × Drawn) :
    Result (NormalizedObservation × Drawn) := do
  return (← normalizeObservation input.1, input.2)

/-- `observeBatch(inputs)`: the nodes it answers, and the state it wrote. -/
def observeBatch (platform : Platform) (state : PerceptionState) (now : ClockReading)
    (inputs : List (PerceptionObservation × Drawn)) :
    Result (List PerceptionNode × PerceptionState) := do
  rejectIf (inputs.length < 1 ∨ 5000 < inputs.length) .perceptionInputInvalid
    "Perception observation batch must contain between 1 and 5000 items."
  let normalized ← inputs.mapM normalizeDrawn
  let state ← validateState state
  let (state, places) ← applyAll platform now (prune state now) normalized
  let written ← write platform
    { nodes := state.nodes.insertionSort fun a b => nodeLe platform a b }
  return (places.filterMap fun place => state.nodes[place]?, written)

def observe (platform : Platform) (state : PerceptionState) (now : ClockReading)
    (input : PerceptionObservation × Drawn) :
    Result (Option PerceptionNode × PerceptionState) := do
  let (nodes, written) ← observeBatch platform state now [input]
  return (nodes.head?, written)

end OperatorRuntime.Perception
