/-
`core/action-transition-journal.ts`: what it makes of the resource keys of
an action, and the check on the intent that an action is bound to.
-/
import Mathlib.Data.List.Sort
import OperatorRuntime.Action
import OperatorRuntime.Lib.Keyed
import OperatorRuntime.ResourceIdentity

namespace OperatorRuntime.Journal

def canonicalResourceKeys (keys : List String) : List String :=
  let normalized := (keys.map normalizeLegacyResourceKey).eraseDups
  let canonical :=
    if normalized.contains "filesystem:any" then
      "filesystem:any" :: normalized.filter fun key =>
        !isFilesystemResource key
    else normalized
  canonical.insertionSort fun a b => Json.keyLe a b = true

/-- `/^[A-Za-z0-9._:-]{1,128}$/`. -/
def isConversationId (value : String) : Bool :=
  1 ≤ value.toList.length && value.toList.length ≤ 128 && value.toList.all fun c =>
      isAlnum c || c == '.' || c == '_' || c == ':' || c == '-'

def validIntentBinding (raw : IntentBinding) : Result IntentBinding := do
  rejectIf (isConversationId raw.conversationId = false)
    .intentBindingInvalid "Intent conversationId is invalid."
  rejectIf (raw.intentVersion < 1 ∨ maxSafeInteger < raw.intentVersion)
    .intentBindingInvalid "Intent version is invalid."
  match hex64? raw.digest with
  | some digest => .ok { raw with digest := digest.val }
  | none => fail .intentBindingInvalid "Intent digest is invalid."

end OperatorRuntime.Journal
