/-
`ConversationLedger`: the turns of one conversation, a line of JSON each, in a
file that appends write in place.

The file is what its bytes decode to, with the number of the bytes. A write that
stops leaves whole characters of its line and perhaps some bytes of the next
one, which decode to U+FFFD, whatever follows them.

Calls of one conversation run one after another, under the lock of the file, so
a call sees the file as the one before left it. A turn is read with the name,
time and text that were stored.
-/
import OperatorRuntime.JsonParse
import OperatorRuntime.ProcessInstance
import OperatorRuntime.StateFile

namespace OperatorRuntime.Conversation

/-- What the runtime answers: digests, `Date.parse`, `Number` of a text, and how
a number that is no safe natural number in plain digits is rendered. -/
structure Platform where
  sha256 : String → Hex64
  dateParse : String → Option Instant
  numberOfText : String → Number
  renderNumber : List Char → String

-- ===== turns

inductive ConversationTurnRole
  | user
  | assistant
  | system
deriving DecidableEq

def ConversationTurnRole.text : ConversationTurnRole → String
  | .user => "user"
  | .assistant => "assistant"
  | .system => "system"

/-- `/^[A-Za-z0-9._:-]{1,128}$/`. -/
def isBoundedId (v : String) : Bool :=
  1 ≤ v.toList.length && v.toList.length ≤ 128
    && v.toList.all fun c => isAlnum c || c == '.' || c == '_' || c == ':' || c == '-'

def BoundedId := { text : String // isBoundedId text = true }
deriving DecidableEq

structure ConversationTurn where
  id : BoundedId
  conversationId : BoundedId
  sequence : Nat
  role : ConversationTurnRole
  contentDigest : Hex64
  content : Option String
  createdAt : Instant
  supersedes : Option (List BoundedId)
deriving DecidableEq

def maxTurnBytes : Nat := 256 * 1024

def maxLedgerBytes : Nat := 256 * 1024 * 1024

-- ===== validators

def inputInvalid {α : Type} (message : String) : Result α :=
  fail .conversationInputInvalid message

def ledgerCorrupt {α : Type} (message : String) : Result α :=
  fail .conversationLedgerCorrupt message

def validRole (input : Option Json) : Result ConversationTurnRole :=
  match input with
  | some (.str "user") => .ok .user
  | some (.str "assistant") => .ok .assistant
  | some (.str "system") => .ok .system
  | _ => inputInvalid "Conversation role is invalid."

def boundedId (input : Option Json) (label : String) : Result BoundedId :=
  if h : isBoundedId (Json.textOf input) = true then .ok ⟨Json.textOf input, h⟩
  else inputInvalid s!"{label} is invalid."

def boundedText (input : Option Json) (maxBytes : Nat) (label : String) :
    Result String :=
  match input with
  | some (.str text) =>
    if text = "" ∨ includesChar text '\x00' = true ∨ maxBytes < text.utf8ByteSize then
      inputInvalid s!"{label} is invalid."
    else .ok text
  | _ => inputInvalid s!"{label} is invalid."

def digest (input : Option Json) : Result Hex64 :=
  match hex64? (Json.textOf input) with
  | some digest => .ok digest
  | none => ledgerCorrupt "contentDigest is invalid."

def iso (platform : Platform) (input : Option Json) : Result Instant :=
  match platform.dateParse (Json.textOf input) with
  | some at' =>
    if at'.isoText = Json.textOf input then .ok at' else ledgerCorrupt "createdAt is invalid."
  | none => ledgerCorrupt "createdAt is invalid."

def uniqueIds (input : Json) : Result (List BoundedId) :=
  match input with
  | .arr items => do
    rejectIf (1000 < items.length) .conversationInputInvalid "supersedes is invalid."
    let ids ← items.mapM fun value => boundedId (some value) "supersedes id"
    rejectIf (¬ ids.Nodup) .conversationInputInvalid "supersedes contains duplicates."
    return ids
  | _ => inputInvalid "supersedes is invalid."

/-- `Number(input)`. -/
def toNumber (platform : Platform) : Option Json → Number
  | none => .other
  | some .null => .int 0
  | some (.bool b) => .int (if b then 1 else 0)
  | some (.num text) => Json.numberOf (some (.num text))
  | some v => platform.numberOfText (Json.toText v)

/-- `integer(input, 1, Number.MAX_SAFE_INTEGER, label)`. -/
def integer (platform : Platform) (input : Option Json) (label : String) : Result Nat :=
  match (toNumber platform input).safeFrom? 1 with
  | some n => .ok n
  | none => ledgerCorrupt s!"{label} is invalid."

-- ===== JSON

def ConversationTurn.fields (turn : ConversationTurn) : List (String × Json) :=
  [("version", .num (toString 1)), ("id", .str turn.id.val),
    ("conversationId", .str turn.conversationId.val), ("sequence", .num (toString turn.sequence)),
    ("role", .str turn.role.text), ("contentDigest", .str turn.contentDigest.val)]
  ++ (turn.content.map fun content => ("content", Json.str content)).toList
  ++ [("createdAt", .str turn.createdAt.isoText)]
  ++ (turn.supersedes.map fun ids => ("supersedes", Json.arr (ids.map fun id => .str id.val))).toList

/-- `JSON.stringify(turn)`. -/
def ConversationTurn.text (turn : ConversationTurn) : List Char :=
  (Json.stringify (.obj turn.fields)).toList

def parseTurn (platform : Platform) (line : List Char) (expectedSequence : Nat) :
    Result ConversationTurn := do
  match Json.parse platform.renderNumber line with
  | none => ledgerCorrupt "Conversation ledger contains invalid JSON."
  | some raw => do
    rejectIf ((match raw.field? "version" with
        | some (.num "1") => false
        | _ => true) = true)
      .conversationLedgerCorrupt "Conversation ledger version is invalid."
    let id ← boundedId (raw.field? "id") "id"
    let conversationId ← boundedId (raw.field? "conversationId") "conversationId"
    let sequence ← integer platform (raw.field? "sequence") "sequence"
    let role ← validRole (raw.field? "role")
    let contentDigest ← digest (raw.field? "contentDigest")
    let content ← (raw.field? "content").mapM fun content =>
      boundedText (some content) maxTurnBytes "content"
    let createdAt ← iso platform (raw.field? "createdAt")
    let supersedes ← (raw.field? "supersedes").mapM uniqueIds
    rejectIf (sequence ≠ expectedSequence) .conversationLedgerCorrupt
      "Conversation ledger sequence mismatch."
    rejectIf (content.any (fun text => text != "" && platform.sha256 text != contentDigest) = true)
      .conversationLedgerCorrupt "Conversation content digest does not match."
    return { id, conversationId, sequence, role, contentDigest, content, createdAt, supersedes }

-- ===== file

/-- The decoded bytes of a file, and how many there are. -/
structure File where
  text : List Char
  size : Nat

def trimEnd (text : List Char) : List Char :=
  (text.reverse.dropWhile isBlank).reverse

/-- The loop over the turns, from the one at `i` on, with the names before it. -/
def checkTurns (conversationId : BoundedId) : Nat → List BoundedId → List ConversationTurn →
    Result Unit
  | _, _, [] => .ok ()
  | i, turnIds, turn :: turns => do
    rejectIf (turn.conversationId ≠ conversationId) .conversationLedgerCorrupt
      "Conversation ledger contains a turn belonging to a different conversation."
    rejectIf (turn.sequence ≠ i + 1) .conversationLedgerCorrupt
      "Conversation ledger sequence is not contiguous."
    rejectIf (turn.id ∈ turnIds) .conversationLedgerCorrupt
      "Conversation ledger contains duplicate turn identities."
    rejectIf (∃ id ∈ turn.supersedes.getD [], id ∉ turnIds) .conversationLedgerCorrupt
      "Conversation ledger references a superseded turn that is not earlier in this conversation."
    checkTurns conversationId (i + 1) (turnIds ++ [turn.id]) turns

def listUnlocked (platform : Platform) (conversationId : BoundedId) (file : Option File) :
    Result (List ConversationTurn) :=
  match file with
  | none => .ok []
  | some file => do
    rejectIf (maxLedgerBytes < file.size) .conversationLedgerCorrupt
      "Conversation ledger is invalid. State file exceeds the bounded size."
    if file.text.all isBlank = true then return []
    else do
      let turns ← ((trimEnd file.text).splitOn '\n').zipIdx.mapM fun (line, index) =>
        parseTurn platform line (index + 1)
      checkTurns conversationId 0 [] turns
      return turns

-- ===== append

structure AppendInput where
  role : Option Json
  content : Option Json
  retainContent : Bool
  supersedes : Option Json

/-- `uniqueIds(input.supersedes ?? [])`. -/
def AppendInput.ids (input : AppendInput) : Result (List BoundedId) :=
  match input.supersedes with
  | none | some .null => uniqueIds (.arr [])
  | some supersedes => uniqueIds supersedes

/-- The turn `append` is about to write, `createdAt` and `id` being the time and
the name it draws. -/
def nextTurn (platform : Platform) (conversationId : BoundedId) (existing : List ConversationTurn)
    (input : AppendInput) (createdAt : Instant) (id : BoundedId) :
    Result ConversationTurn := do
  let content ← boundedText input.content maxTurnBytes "content"
  let role ← validRole input.role
  let supersedes ← input.ids
  rejectIf (∃ turnId ∈ supersedes, turnId ∉ existing.map ConversationTurn.id)
    .conversationInputInvalid "Superseded turn must already exist in this conversation."
  return {
    id, conversationId, sequence := existing.length + 1, role
    contentDigest := platform.sha256 content
    content := if input.retainContent then some content else none
    createdAt
    supersedes := if supersedes = [] then none else some supersedes }

def ConversationTurn.line (turn : ConversationTurn) : List Char :=
  turn.text ++ ['\n']

/-- The checks of `appendDurableStateText` before it writes. -/
def checkRoom (file : Option File) (content : List Char) : Result Unit := do
  rejectIf (byteLength content < 1 ∨ maxLedgerBytes < byteLength content) .conversationLedgerCorrupt
    "Conversation ledger is invalid. Appended state content is empty or exceeds the bounded size."
  rejectIf (maxLedgerBytes < (file.map File.size).getD 0 + byteLength content)
    .conversationLedgerCorrupt
    "Conversation ledger is invalid. State file would exceed the bounded size after append."

/-- `append` up to its write: the turn whose line it writes at the end of the file. -/
def prepare (platform : Platform) (conversationId : BoundedId) (file : Option File)
    (input : AppendInput) (createdAt : Instant) (id : BoundedId) :
    Result ConversationTurn := do
  let existing ← listUnlocked platform conversationId file
  let turn ← nextTurn platform conversationId existing input createdAt id
  checkRoom file turn.line
  return turn

def emptyFile : File := ⟨[], 0⟩

def File.write (file : File) (content : List Char) : File :=
  ⟨file.text ++ content, file.size + byteLength content⟩

/-- `append`, when nothing stops it. -/
def append (platform : Platform) (conversationId : BoundedId) (file : Option File)
    (input : AppendInput) (createdAt : Instant) (id : BoundedId) :
    Result (ConversationTurn × File) := do
  let turn ← prepare platform conversationId file input createdAt id
  return (turn, (file.getD emptyFile).write turn.line)

-- ===== crashes

/-- Where a write stops: after so many characters of its content, and so many
bytes of the one after them. -/
structure Cut where
  chars : Nat
  bytes : Nat

/-- Whether the content has such a place. -/
def Cut.within (cut : Cut) (content : List Char) : Prop :=
  match content[cut.chars]? with
  | some c => cut.bytes < c.utf8Size
  | none => cut.chars = content.length ∧ cut.bytes = 0

def File.writeTo (file : File) (content : List Char) (cut : Cut) : File :=
  let written := file.write (content.take cut.chars)
  if cut.bytes = 0 then written
  else ⟨written.text ++ ['\uFFFD'], written.size + cut.bytes⟩

end OperatorRuntime.Conversation
