/-
`core/process-instance.ts`: what an operating-system observation of a
PID says about a recorded process. A PID alone identifies nothing, since
it is reused; a record carries the creation identity of its process as
well, an opaque text whose format tells the platform.

The observation itself is made outside the program and is an argument
here. `Date.parse` is a parameter: a text it accepts matters only for a
creation time of a Windows process in the legacy ISO format.
-/
import OperatorRuntime.Json
import OperatorRuntime.Text

namespace OperatorRuntime

-- ===== text matching

/-- What follows a literal at the start of a text. -/
def after? (literal : String) (text : List Char) : Option (List Char) :=
  if literal.toList.isPrefixOf text then
    some (text.drop literal.toList.length)
  else none

/-- `\d+` up to the end of the text. -/
def isDigits (text : List Char) : Bool :=
  !text.isEmpty && text.all Char.isDigit

/-- `String.length` of JavaScript: the number of UTF-16 code units. -/
def jsLength (text : String) : Nat :=
  (text.toList.flatMap Json.codeUnits).length

/-- `text.includes(unit)` for one character. -/
def includesChar (text : String) (c : Char) : Bool :=
  text.toList.contains c

-- ===== identities

structure ProcessInstanceIdentity where
  pid : Nat
  started : String
deriving DecidableEq

inductive ProcessInstanceObservation
  | live (identity : Option ProcessInstanceIdentity)
  | dead
  | unknown
deriving DecidableEq

/-- `ProcessInstanceObserver`; `none` is a throwing observer. -/
abbrev ProcessInstanceObserver := Nat → Option ProcessInstanceObservation

/-- `Date.parse`, `none` where it is not finite. -/
abbrev DateParse := String → Option Int

/-- `[0-9a-f]{8}(?:-[0-9a-f]{4}){3}-[0-9a-f]{12}`. -/
def bootIdClasses : List (Char → Bool) :=
  List.replicate 8 isHex ++ (List.replicate 3 (isDash :: List.replicate 4 isHex)).flatten
    ++ isDash :: List.replicate 12 isHex

/-- `linux-boot-id:<class>{36}:pidns:(\d+):ticks:\d+`, the boot id matched
by `classes`; the two groups are returned. -/
def bootNamespace? (classes : List (Char → Bool)) (started : String) :
    Option (List Char × List Char) := do
  let rest ← after? "linux-boot-id:" started.toList
  let bootId := rest.take 36
  let rest ← after? ":pidns:" (rest.drop 36)
  let namespaceInode := rest.takeWhile Char.isDigit
  let ticks ← after? ":ticks:" (rest.dropWhile Char.isDigit)
  if matchesClasses classes bootId && isDigits namespaceInode
      && isDigits ticks then
    some (bootId, namespaceInode)
  else none

def localPidObservationAdmissible (storedIdentity : Option ProcessInstanceIdentity)
    (localIdentity : ProcessInstanceIdentity) : Bool :=
  match storedIdentity with
  | none => false
  | some stored =>
    match bootNamespace? bootIdClasses stored.started with
    | some linuxV3 =>
      bootNamespace? bootIdClasses localIdentity.started == some linuxV3
    | none => (after? "linux-boot-" stored.started.toList).isNone

/-- `[0-9a-f-]{36}`. -/
def looseBootIdClasses : List (Char → Bool) :=
  List.replicate 36 fun c => isHex c || isDash c

def linuxIdentityFormat (value : String) : Nat :=
  if (after? "linux-boot-ticks:" value.toList).any isDigits then 1
  else if (after? "linux-boot-id:" value.toList).any (fun rest =>
      matchesClasses looseBootIdClasses (rest.take 36)
        && (after? ":ticks:" (rest.drop 36)).any isDigits) then 2
  else if (bootNamespace? looseBootIdClasses value).isSome then 3
  else 0

def linuxIdentityUpgradeUncertain (left right : String) : Bool :=
  0 < linuxIdentityFormat left && 0 < linuxIdentityFormat right
    && linuxIdentityFormat left != linuxIdentityFormat right

/-- The value of a decimal numeral. -/
def decimal (digits : List Char) : Nat :=
  digits.foldl (fun n c => 10 * n + (c.toNat - '0'.toNat)) 0

def windowsEpochFiletimeMs : Int := 11644473600000

/-- `/^\d{4}-\d{2}-\d{2}T/`. -/
def startsWithIsoDate (value : String) : Bool :=
  matchesClasses
    (List.replicate 4 Char.isDigit ++ [isDash] ++ List.replicate 2 Char.isDigit
      ++ [isDash] ++ List.replicate 2 Char.isDigit ++ [(· == 'T')])
    (value.toList.take 11)

def windowsStartedMillisecond (dateParse : DateParse) (value : String) : Option Int :=
  match after? "windows-filetime:" value.toList with
  | some digits =>
    if isDigits digits && 15 ≤ digits.length && digits.length ≤ 20 then
      some (decimal digits / 10000)
    else isoMillisecond
  | none => isoMillisecond
where
  isoMillisecond : Option Int :=
    match dateParse value with
    | some parsed =>
      if startsWithIsoDate value then some (parsed + windowsEpochFiletimeMs)
      else none
    | none => none

def sameProcessInstance (dateParse : DateParse) (left right : ProcessInstanceIdentity) : Bool :=
  if left.pid ≠ right.pid then false
  else if left.started = right.started then true
  else
    match windowsStartedMillisecond dateParse left.started,
        windowsStartedMillisecond dateParse right.started with
    | some leftMs, some rightMs => leftMs == rightMs
    | _, _ => false

def processInstanceDefinitelyStale (dateParse : DateParse)
    (storedIdentity : Option ProcessInstanceIdentity)
    (observation : ProcessInstanceObservation) : Bool :=
  match observation, storedIdentity with
  | .dead, _ => true
  | .live (some identity), some stored =>
    if linuxIdentityUpgradeUncertain stored.started identity.started then
      false
    else !sameProcessInstance dateParse stored identity
  | _, _ => false

def validProcessInstance (identity : ProcessInstanceIdentity) : Bool :=
  1 ≤ identity.pid && identity.pid ≤ 0x7fffffff
    && 1 ≤ jsLength identity.started && jsLength identity.started ≤ 256
    && !includesChar identity.started '\x00'

-- ===== truthfulness

/-- The observation says that the process has ended: its PID is free, or
another process has it. -/
def ReportsEnded (dateParse : DateParse) (observe : ProcessInstanceObserver)
    (process : ProcessInstanceIdentity) : Prop :=
  observe process.pid = some .dead ∨ ∃ identity, observe process.pid = some (.live (some identity))
      ∧ sameProcessInstance dateParse process identity = false

theorem reportsEnded_of_stale {dateParse : DateParse}
    {observe : ProcessInstanceObserver} {process : ProcessInstanceIdentity}
    (h : processInstanceDefinitelyStale dateParse (some process)
      ((observe process.pid).getD .unknown) = true) :
    ReportsEnded dateParse observe process := by
  unfold ReportsEnded
  cases hobs : observe process.pid with
  | none => simp [hobs, processInstanceDefinitelyStale] at h
  | some observation =>
    cases observation with
    | dead => exact .inl rfl
    | unknown => simp [hobs, processInstanceDefinitelyStale] at h
    | live identity =>
      cases identity with
      | none => simp [hobs, processInstanceDefinitelyStale] at h
      | some identity =>
        refine .inr ⟨identity, rfl, ?_⟩
        simp only [hobs, Option.getD_some, processInstanceDefinitelyStale] at h
        split at h
        · cases h
        · simpa using h

end OperatorRuntime
