/-
Actions and their results: the parts of `core/types.ts` that the stores
read, the digests of `core/action-identity.ts` and the verification of an
outcome by `core/action-verification.ts`.

SHA-256 is a parameter. A digest is taken of the canonical JSON of the
value, so every record has its JSON here; fields that are left out
(`taskId`, `epistemicStatus`) are read by no modelled function.
-/
import OperatorRuntime.Json
import OperatorRuntime.ProcessInstance
import OperatorRuntime.Text

namespace OperatorRuntime

-- ===== vocabularies

inductive ActionRisk
  | read
  | write
  | external
  | system
  | destructive
deriving DecidableEq

def ActionRisk.text : ActionRisk → String
  | .read => "read"
  | .write => "write"
  | .external => "external"
  | .system => "system"
  | .destructive => "destructive"

inductive SideEffectState
  | none
  | known
  | uncertain
deriving DecidableEq

inductive ExecutionPhase
  | preDispatch
  | dispatched
  | effectObserved
  | reconciled
deriving DecidableEq

inductive EvidenceStatus
  | pass
  | fail
  | info
deriving DecidableEq

-- ===== records

structure IntentBinding where
  conversationId : String
  intentVersion : Nat
  digest : String
deriving DecidableEq

structure ActionRequest where
  id : String
  capability : String
  risk : ActionRisk
  input : JsonObject
  provenance : JsonObject
  target : Option String
  intent : Option IntentBinding

structure Evidence where
  kind : String
  status : EvidenceStatus
  message : String
  data : Option JsonObject
  timestamp : String

structure ActionError where
  code : String
  message : String
  retryable : Option Bool := none
  sideEffectState : Option SideEffectState := none
  executionPhase : Option ExecutionPhase := none
  details : Option JsonObject := none

structure ActionResult where
  ok : Bool
  capability : String
  provider : String
  output : Option Json
  evidence : List Evidence
  error : Option ActionError
  durationMs : Nat

/-- `result.error?.sideEffectState`. -/
def ActionResult.sideEffectState? (result : ActionResult) : Option SideEffectState :=
  result.error.bind ActionError.sideEffectState

-- ===== JSON

/-- A field that is dropped when its value is undefined. -/
def optionalField (key : String) (value : Option Json) : JsonObject :=
  match value with
  | none => []
  | some value => [(key, value)]

def IntentBinding.json (intent : IntentBinding) : Json :=
  .obj [("conversationId", .str intent.conversationId),
    ("intentVersion", .num (toString intent.intentVersion)),
    ("digest", .str intent.digest)]

-- ===== digests

/-- `crypto.createHash('sha256').update(text, 'utf8').digest('hex')`. -/
abbrev Sha256 := String → Hex64

def Sha256.digest (sha256 : Sha256) (value : Json) : Hex64 :=
  sha256 (Json.canonicalJson value)

def actionHash (sha256 : Sha256) (action : ActionRequest) : Hex64 :=
  sha256.digest (.obj [("capability", .str action.capability), ("risk", .str action.risk.text),
      ("input", .obj action.input), ("provenance", .obj action.provenance),
      ("target", (action.target.map Json.str).getD .null),
      ("intent", (action.intent.map IntentBinding.json).getD .null)])

-- ===== verification

/-- `kernelVerificationDigest`: the digest of the last passing kernel
verification among the evidence. -/
def kernelVerificationDigest (result : ActionResult) : Option Hex64 :=
  result.evidence.reverse.findSome? fun item =>
    if item.kind ≠ "kernel_verification" ∨ item.status ≠ .pass then none
    else
      match item.data.bind fun data =>
          (Json.obj data).field? "verificationDigest" with
      | some (.str value) => hex64? value
      | _ => none

structure VerificationCheck where
  name : String
  ok : Bool
  detail : String
  evidenceDigests : List Hex64

def VerificationCheck.json (check : VerificationCheck) : Json :=
  .obj [("name", .str check.name), ("ok", .bool check.ok), ("detail", .str check.detail),
    ("evidenceDigests", .arr (check.evidenceDigests.map fun digest => .str digest.val))]

structure VerificationReceipt where
  contractDigest : Hex64
  verified : Bool
  digest : Hex64

/-- `VerificationKernel.verify`, on checks that are already sorted by
name. -/
def verify (sha256 : Sha256) (subjectKind subjectId : String)
    (contract : Json) (checks : List VerificationCheck) :
    Result VerificationReceipt := do
  rejectIf (jsLength subjectId < 1 ∨ 512 < jsLength subjectId
      ∨ includesChar subjectId '\x00' = true)
    .verificationInputInvalid "subjectId is invalid."
  let contractDigest := sha256.digest contract
  let verified := checks.all VerificationCheck.ok
  .ok
    { contractDigest, verified
      digest := sha256.digest (.obj [("version", .num "1"), ("subjectKind", .str subjectKind),
          ("subjectId", .str subjectId),
          ("contractDigest", .str contractDigest.val),
          ("checks", .arr (checks.map VerificationCheck.json)),
          ("verified", .bool verified)]) }

end OperatorRuntime
