/-
The store of action receipts accepts what it has written. Every write keeps
the records valid, as long as a receipt is completed at a reading of the
clock that is not before its start (`Orderly`): the wall clock steps back,
and `complete` stores the reading it gets while `validateRecord` refuses a
completion before the start. After such a write the file is refused by every
call (`completed_before_started`).
-/
import OperatorRuntime.Execution.ActionExecutionStore
import OperatorRuntime.Lib.Keyed
import OperatorRuntime.Lib.Runs

namespace OperatorRuntime.Execution

open Approval (ApprovalAuthorityContext approvalAuthorityFingerprint)
open Lib

section
variable {sha256 : Sha256} {stored state : State} {r record : ExecutionRecord} {env : Environment}

-- ===== valid files

/-- What `validateRecord` accepts. -/
structure ValidRecord (sha256 : Sha256) (r : ExecutionRecord) : Prop where
  id : isActionId r.actionId = true
  owner : ∀ p ∈ r.ownerProcess, validProcessInstance p = true
  result : ∀ v ∈ r.result, validateResult v = .ok v
  processing : r.status = .processing →
    r.completedAt = none ∧ r.resultSha256 = none ∧ r.result = none ∧ r.kernelCompletion = none
  completed : r.status = .completed → ∃ c v, r.completedAt = some c ∧ r.startedAt.val ≤ c.val
    ∧ r.result = some v ∧ r.resultSha256 = some (resultHash sha256 v)

structure ValidState (sha256 : Sha256) (state : State) : Prop where
  few : state.length ≤ maxRecords
  valid : ∀ r ∈ state, ValidRecord sha256 r
  ids : (state.map (·.actionId)).Nodup

theorem ValidState.nil : ValidState sha256 [] :=
  ⟨Nat.zero_le _, fun _ h => (nomatch h), List.nodup_nil⟩

theorem corruptIf_eq_ok {bad : Prop} [Decidable bad] {u : Unit} : corruptIf bad = .ok u ↔ ¬ bad :=
  rejectIf_eq_ok

theorem ValidRecord.validateRecord (h : ValidRecord sha256 r) {ids : List String}
    (hfresh : r.actionId ∉ ids) : validateRecord sha256 ids r = .ok () := by
  have hresult : validateStored r.result = .ok () := by
    cases hr : r.result with
    | none => rfl
    | some v =>
      rw [validateStored, h.result v hr]
      rfl
  have hstatus : ¬ (r.status = .processing ∧ (r.completedAt.isSome ∨ r.resultSha256.isSome
      ∨ r.result.isSome ∨ r.kernelCompletion.isSome)) := by
    rintro ⟨hs, hsome⟩
    obtain ⟨h1, h2, h3, h4⟩ := h.processing hs
    simp [h1, h2, h3, h4] at hsome
  have hmeta : ¬ (r.status = .completed ∧ (r.completedAt.isNone ∨ r.resultSha256.isNone
      ∨ r.result.isNone)) := by
    rintro ⟨hs, hnone⟩
    obtain ⟨c, v, hc, -, hv, hsha⟩ := h.completed hs
    simp [hc, hv, hsha] at hnone
  have htimes : ¬ ∃ c ∈ r.completedAt, c.val < r.startedAt.val := by
    rintro ⟨c, hc, hlt⟩
    cases hs : r.status with
    | processing => simp [(h.processing hs).1] at hc
    | completed =>
      obtain ⟨c', v, hc', hle, -, -⟩ := h.completed hs
      rw [hc'] at hc
      cases hc
      omega
  have hhash : ¬ ∃ result ∈ r.result, r.resultSha256 ≠ some (resultHash sha256 result) := by
    rintro ⟨v, hv, hne⟩
    cases hs : r.status with
    | processing => simp [(h.processing hs).2.2.1] at hv
    | completed =>
      obtain ⟨c, v', -, -, hv', hsha⟩ := h.completed hs
      rw [hv'] at hv
      cases hv
      exact hne hsha
  have howner : ¬ ∃ p ∈ r.ownerProcess, validProcessInstance p = false := by
    rintro ⟨p, hp, hfalse⟩
    rw [h.owner p hp] at hfalse
    cases hfalse
  unfold Execution.validateRecord
  rw [corruptIf_eq_ok (u := ()).2 (by simp [h.id]), corruptIf_eq_ok (u := ()).2 hfresh,
    corruptIf_eq_ok (u := ()).2 howner, hresult, corruptIf_eq_ok (u := ()).2 hstatus,
    corruptIf_eq_ok (u := ()).2 hmeta, corruptIf_eq_ok (u := ()).2 htimes,
    corruptIf_eq_ok (u := ()).2 hhash]
  rfl

theorem validateRecords_ok {ids : List String} (hvalid : ∀ r ∈ state, ValidRecord sha256 r)
    (hfresh : ∀ r ∈ state, r.actionId ∉ ids) (hids : (state.map (·.actionId)).Nodup) :
    validateRecords sha256 ids state = .ok () := by
  induction state generalizing ids with
  | nil => rfl
  | cons r state ih =>
    rw [List.map_cons, List.nodup_cons] at hids
    rw [validateRecords, (hvalid r (List.mem_cons_self ..)).validateRecord
      (hfresh r (List.mem_cons_self ..))]
    refine ih (fun x hx => hvalid x (List.mem_cons_of_mem _ hx)) ?_ hids.2
    intro x hx hmem
    rcases List.mem_cons.1 hmem with heq | hmem
    · exact hids.1 (heq ▸ List.mem_map_of_mem hx)
    · exact hfresh x (List.mem_cons_of_mem _ hx) hmem

theorem ValidState.validateState (h : ValidState sha256 state) :
    validateState sha256 state = .ok state := by
  unfold Execution.validateState
  rw [corruptIf_eq_ok (u := ()).2 (Nat.not_lt.2 h.few),
    validateRecords_ok h.valid (fun _ _ => List.not_mem_nil) h.ids]
  rfl

-- ===== one change

theorem recordOf?_mem {id : String} (h : recordOf? state id = some r) :
    r ∈ state ∧ r.actionId = id :=
  ⟨List.mem_of_find?_eq_some h, by simpa using List.find?_some h⟩

theorem ValidState.prune (h : ValidState sha256 state) (now : Instant) :
    ValidState sha256 (prune state now) where
  few := (List.length_filter_le ..).trans h.few
  valid := fun r hr => h.valid r (List.mem_filter.1 hr).1
  ids := h.ids.sublist (List.filter_sublist.map _)

theorem ValidState.recordOf?_prune (h : ValidState sha256 state) {now : Instant} {id : String}
    (hr : recordOf? (Execution.prune state now) id = some r) : recordOf? state id = some r := by
  obtain ⟨hmem, hid⟩ := recordOf?_mem hr
  exact (find?_key_eq_some h.ids).2 ⟨(List.mem_filter.1 hmem).1, hid⟩

theorem ValidState.put (h : ValidState sha256 state) (hr : ValidRecord sha256 r) :
    ValidState sha256 (put state r) where
  few := by
    rw [Execution.put, List.length_map]
    exact h.few
  valid := by
    intro x hx
    obtain ⟨y, hy, rfl⟩ := List.mem_map.1 hx
    split
    · exact hr
    · exact h.valid y hy
  ids := by
    have hsame : (Execution.put state r).map (·.actionId) = state.map (·.actionId) := by
      rw [Execution.put, List.map_map]
      refine List.map_congr_left fun x _ => ?_
      show (if x.actionId = r.actionId then r else x).actionId = x.actionId
      split
      · next heq => exact heq.symm
      · rfl
    rw [hsame]
    exact h.ids

theorem ValidState.append (h : ValidState sha256 state) (hr : ValidRecord sha256 r)
    (hroom : ¬ maxRecords ≤ state.length) (hnew : recordOf? state r.actionId = none) :
    ValidState sha256 (state ++ [r]) where
  few := by
    rw [List.length_append, List.length_singleton]
    omega
  valid := by
    intro x hx
    rcases List.mem_append.1 hx with hx | hx
    · exact h.valid x hx
    · rw [List.mem_singleton.1 hx]
      exact hr
  ids := by
    rw [List.map_append, List.map_singleton, ← List.concat_eq_append]
    refine List.Nodup.concat ?_ h.ids
    intro hmem
    obtain ⟨x, hx, heq⟩ := List.mem_map.1 hmem
    have hne := List.find?_eq_none.1 hnew x hx
    simp [heq] at hne

/-- What a mutation keeps valid, the store keeps valid, written or not. -/
theorem mutate_valid {α : Type} {written : Bool} (h : ValidState sha256 stored)
    {fn : State → Result (State × α)}
    (hfn : ∀ state value, fn stored = .ok (state, value) → ValidState sha256 state) :
    ValidState sha256 (mutate sha256 written stored fn).1 := by
  unfold mutate
  rw [h.validateState, ok_bind]
  cases hrun : fn stored with
  | error e => exact h
  | ok outcome =>
    cases written with
    | false => exact h
    | true => exact hfn _ _ hrun

variable {action : ActionRequest} {authority : Option ApprovalAuthorityContext}

theorem identified_valid {α : Type} (h : ValidState sha256 stored)
    {call : Hex64 → Hex64 → State × Result α}
    (hcall : ∀ hash authorityHash, ValidState sha256 (call hash authorityHash).1) :
    ValidState sha256 (identified sha256 stored action authority call).1 := by
  unfold identified
  cases approvalAuthorityFingerprint sha256 authority with
  | error e => exact h
  | ok authorityHash => exact hcall _ _

-- ===== records

theorem ValidRecord.newRecord {hash authorityHash : Hex64} (hid : isActionId action.id = true)
    (howner : validProcessInstance env.ownerProcess = true) :
    ValidRecord sha256 (newRecord env action hash authorityHash) where
  id := hid
  owner := by
    intro p hp
    cases hp
    exact howner
  result := fun _ h => nomatch h
  processing := fun _ => ⟨rfl, rfl, rfl, rfl⟩
  completed := fun h => nomatch h

theorem ValidRecord.restarted (h : ValidRecord sha256 r)
    (howner : validProcessInstance env.ownerProcess = true) (hkernel : r.kernelCompletion = none) :
    ValidRecord sha256 (restarted env r) where
  id := h.id
  owner := by
    intro p hp
    cases hp
    exact howner
  result := fun _ h => nomatch h
  processing := fun _ => ⟨rfl, rfl, rfl, hkernel⟩
  completed := fun h => nomatch h

variable {v : Json}

theorem ValidRecord.completedOf (h : ValidRecord sha256 r) {at' : Instant}
    (hv : validateResult v = .ok v) (hle : r.startedAt.val ≤ at'.val)
    (kernel : Option KernelCompletion) :
    ValidRecord sha256 { completedOf sha256 r at' v with kernelCompletion := kernel } where
  id := h.id
  owner := h.owner
  result := by
    intro x hx
    cases hx
    exact hv
  processing := fun h => nomatch h
  completed := fun _ => ⟨at', v, rfl, hle, rfl, rfl⟩

theorem ValidRecord.withProof (h : ValidRecord sha256 r) (hs : r.status = .completed)
    (kernel : Option KernelCompletion) :
    ValidRecord sha256 { r with kernelCompletion := kernel } where
  id := h.id
  owner := h.owner
  result := h.result
  processing := fun hp => by
    rw [show r.status = .processing from hp] at hs
    cases hs
  completed := h.completed

theorem validateResult_eq_ok {w : Json} (h : validateResult v = .ok w) :
    w = v ∧ validateResult v = .ok v := by
  have hsame : w = v := by
    unfold validateResult at h
    simp only [bind_eq_ok] at h
    obtain ⟨_, -, _, -, _, -, _, -, _, -, _, -, h⟩ := h
    exact (Except.ok.inj h).symm
  exact ⟨hsame, hsame ▸ h⟩

theorem storableResult_eq_ok {w : Json} {tooLarge : String}
    (h : storableResult v tooLarge = .ok w) : validateResult w = .ok w := by
  unfold storableResult at h
  simp only [bind_eq_ok] at h
  obtain ⟨x, hx, _, -, h⟩ := h
  obtain ⟨rfl, hv⟩ := validateResult_eq_ok hx
  cases h
  exact hv

-- ===== operations

theorem processing_of_ne {status : ExecutionStatus} (h : ¬ status = .completed) :
    status = .processing := by
  cases status with
  | processing => rfl
  | completed => exact absurd rfl h

theorem begin_valid (h : ValidState sha256 stored) (hid : isActionId action.id = true)
    (howner : validProcessInstance env.ownerProcess = true)
    (hkernel : ∀ r ∈ recordOf? stored action.id, r.risk = .read → r.kernelCompletion = none) :
    ValidState sha256 (begin sha256 env stored action authority).1 := by
  unfold begin
  cases env.riskRule action.capability with
  | error e => exact h
  | ok rule =>
  dsimp only
  cases assertCanonicalRisk action rule with
  | error e => exact h
  | ok u =>
  refine identified_valid h fun hash authorityHash => mutate_valid h fun state value hfn => ?_
  have hpruned := h.prune env.now
  split at hfn
  · next existing hfind =>
    obtain ⟨_, -, hfn⟩ := bind_eq_ok.1 hfn
    have hmem := (recordOf?_mem hfind).1
    split at hfn
    · next hread =>
      split at hfn
      · cases hfn
        exact hpruned
      · cases hfn
        exact hpruned.put ((hpruned.valid _ hmem).restarted howner
          (hkernel _ (h.recordOf?_prune hfind) hread.1))
    · cases hfn
      exact hpruned
  · next hfind =>
    obtain ⟨u, hroom, hfn⟩ := bind_eq_ok.1 hfn
    cases hfn
    exact hpruned.append (.newRecord hid howner) (rejectIf_eq_ok.1 hroom) hfind

/-- The reading `at'` completes no receipt of the action before its start. -/
def Timely (stored : State) (actionId : String) (at' : Instant) : Prop :=
  ∀ r ∈ recordOf? stored actionId, r.status = .processing → r.startedAt.val ≤ at'.val

theorem complete_valid (h : ValidState sha256 stored) {result : Json}
    (htimely : Timely stored action.id env.at') :
    ValidState sha256 (complete sha256 env stored action result authority).1 := by
  unfold complete
  refine identified_valid h fun hash authorityHash => ?_
  split
  · exact h
  next safeResult hsafe =>
  refine mutate_valid h fun state value hfn => ?_
  have hpruned := h.prune env.now
  dsimp only at hfn
  split at hfn
  · cases hfn
  next record hfind =>
  obtain ⟨_, -, hfn⟩ := bind_eq_ok.1 hfn
  split at hfn
  · obtain ⟨_, -, hfn⟩ := bind_eq_ok.1 hfn
    cases hfn
    exact hpruned
  · next hopen =>
    cases hfn
    have hstatus := processing_of_ne hopen
    exact hpruned.put ((hpruned.valid _ (recordOf?_mem hfind).1).completedOf
      (storableResult_eq_ok hsafe) (htimely _ (h.recordOf?_prune hfind) hstatus)
      record.kernelCompletion)

theorem completeFromKernel_valid (h : ValidState sha256 stored) {result : Json}
    {proof : KernelCompletion} (htimely : Timely stored action.id env.at') :
    ValidState sha256 (completeFromKernel sha256 env stored action authority result proof).1 := by
  unfold completeFromKernel
  refine identified_valid h fun hash authorityHash => ?_
  split
  · exact h
  next safeResult hsafe =>
  refine mutate_valid h fun state value hfn => ?_
  have hpruned := h.prune env.now
  dsimp only at hfn
  split at hfn
  · cases hfn
  next record hfind =>
  obtain ⟨_, -, hfn⟩ := bind_eq_ok.1 hfn
  have hrecord := hpruned.valid _ (recordOf?_mem hfind).1
  split at hfn
  · next hdone =>
    obtain ⟨_, -, hfn⟩ := bind_eq_ok.1 hfn
    cases hfn
    exact hpruned.put (hrecord.withProof hdone _)
  · next hopen =>
    cases hfn
    have hstatus := processing_of_ne hopen
    exact hpruned.put (hrecord.completedOf (storableResult_eq_ok hsafe)
      (htimely _ (h.recordOf?_prune hfind) hstatus) (some proof))

theorem lookup_valid (h : ValidState sha256 stored) :
    ValidState sha256 (lookup sha256 env stored action authority).1 := by
  unfold lookup
  refine identified_valid h fun hash authorityHash => mutate_valid h fun state value hfn => ?_
  dsimp only at hfn
  split at hfn
  · cases hfn
    exact h.prune env.now
  · obtain ⟨_, -, hfn⟩ := bind_eq_ok.1 hfn
    cases hfn
    exact h.prune env.now

theorem fence_valid (h : ValidState sha256 stored) {input : SignedFence}
    {reverify : Result Unit} (htimely : Timely stored input.actionId env.now) :
    ValidState sha256 (completeVerifiedSignedFence sha256 env stored input reverify).1 := by
  unfold completeVerifiedSignedFence
  split
  · exact h
  split
  · exact h
  refine mutate_valid h fun state value hfn => ?_
  obtain ⟨_, -, hfn⟩ := bind_eq_ok.1 hfn
  split at hfn
  · cases hfn
  next record hfind =>
  obtain ⟨_, -, hfn⟩ := bind_eq_ok.1 hfn
  split at hfn
  · obtain ⟨_, -, hfn⟩ := bind_eq_ok.1 hfn
    cases hfn
    exact h
  · next hopen =>
    obtain ⟨result, hresult, hfn⟩ := bind_eq_ok.1 hfn
    cases hfn
    have hstatus := processing_of_ne hopen
    obtain ⟨rfl, hv⟩ := validateResult_eq_ok hresult
    exact h.put ((h.valid _ (recordOf?_mem hfind).1).completedOf hv
      (htimely _ hfind hstatus) record.kernelCompletion)

theorem resume_valid (h : ValidState sha256 stored)
    (howner : validProcessInstance env.ownerProcess = true) :
    ValidState sha256 (resumeApprovedPreDispatch sha256 env stored action authority).1 := by
  unfold resumeApprovedPreDispatch
  refine identified_valid h fun hash authorityHash => mutate_valid h fun state value hfn => ?_
  split at hfn
  · cases hfn
  next record hfind =>
  obtain ⟨_, -, hfn⟩ := bind_eq_ok.1 hfn
  split at hfn
  · cases hfn
    exact h
  · next hdone =>
    cases hfn
    have hstatus : record.status = .completed := by
      cases hs : record.status with
      | processing => exact absurd (Or.inl hs) hdone
      | completed => rfl
    exact h.put (((h.valid _ (recordOf?_mem hfind).1).withProof hstatus none).restarted howner rfl)

-- ===== runs

/-- The action ids are those of stored actions and the process identities
are valid; no receipt is completed before its start, and `begin` starts no
read again that carries a kernel completion. -/
def Orderly (stored : State) : Act → Prop
  | .begin env action _ =>
    isActionId action.id = true ∧ validProcessInstance env.ownerProcess = true
      ∧ ∀ r ∈ recordOf? stored action.id, r.risk = .read → r.kernelCompletion = none
  | .complete env action _ _ | .completeFromKernel env action _ _ _ =>
    Timely stored action.id env.at'
  | .lookup _ _ _ => True
  | .fence env input _ => Timely stored input.actionId env.now
  | .resume env _ _ => validProcessInstance env.ownerProcess = true

/-- One call of the store; a file that validates still does. -/
theorem ValidState.step (h : ValidState sha256 stored) {act : Act} (hact : Orderly stored act) :
    ValidState sha256 (step sha256 stored act) := by
  cases act with
  | begin env action authority => exact begin_valid h hact.1 hact.2.1 hact.2.2
  | complete env action result authority => exact complete_valid h hact
  | lookup env action authority => exact lookup_valid h
  | fence env input reverify => exact fence_valid h hact
  | resume env action authority => exact resume_valid h hact
  | completeFromKernel env action authority result proof => exact completeFromKernel_valid h hact

end

/-- In every run of orderly calls, by any number of stores on one file, what
was written is accepted when it is read again. -/
theorem written_state_accepted (sha256 : Sha256) (acts : List Act) (stored : State)
    (hrun : Run (Where (stepsOf fun s act => some (step sha256 s act)) Orderly) [] acts stored) :
    validateState sha256 stored = .ok stored := by
  have hvalid : ValidState sha256 stored := hrun.invariant ValidState.nil
    fun h hstep => Option.some.inj hstep.1 ▸ h.step hstep.2
  exact hvalid.validateState

-- ===== samples

def sampleUuid : Uuid := onesUuid

/-- A call at a reading of the clock. -/
def envAt (at' : Instant) : Environment where
  ownerId := sampleUuid
  ownerProcess := ⟨1, "linux-boot-ticks:1"⟩
  now := at'
  at'
  riskRule := fun _ => .ok (some .write)
  written := true

def sampleAction : ActionRequest where
  id := "a"
  capability := "file.write"
  risk := .write
  input := []
  provenance := []
  target := none
  intent := none

def sampleResult : Json :=
  .obj [("ok", .bool true), ("capability", .str "file.write"), ("provider", .str "p"),
    ("evidence", .arr []), ("durationMs", .num "1")]

def twoReadings (first second : Instant) : List Act :=
  [.begin (envAt first) sampleAction none, .complete (envAt second) sampleAction sampleResult none]

/-- The file after the two calls. -/
def afterReadings (first second : Instant) : State :=
  (twoReadings first second).foldl (step sha256Utf8) []

/-- A record that starts at one second and completes at two. -/
theorem written_state_accepted_sample :
    validateState sha256Utf8 (afterReadings ⟨1000, by decide⟩ ⟨2000, by decide⟩)
    = .ok (afterReadings ⟨1000, by decide⟩ ⟨2000, by decide⟩) := by
  refine written_state_accepted sha256Utf8 (twoReadings ⟨1000, by decide⟩ ⟨2000, by decide⟩) _
    (@Run.snoc _ _ _ _ [_] _ _ _ (@Run.snoc _ _ _ _ [] _ _ _ .nil ⟨rfl, ?_⟩) ⟨rfl, ?_⟩)
  · exact ⟨by decide, by decide, fun _ h => nomatch h⟩
  · show ∀ r ∈ recordOf? _ _, _
    decide

/-- A clock that steps back by half a second between the start and the
completion leaves a file that every later call refuses. -/
theorem completed_before_started : ∃ stored,
    Run (stepsOf fun s act => some (step sha256Utf8 s act)) []
        (twoReadings ⟨1000, by decide⟩ ⟨500, by decide⟩) stored
      ∧ ∃ e, validateState sha256Utf8 stored = .error e
        ∧ e.code = .actionExecutionStateInvalid := by
  refine ⟨_, @Run.snoc _ _ _ _ [_] _ _ _ (@Run.snoc _ _ _ _ [] _ _ _ .nil rfl) rfl, ?_⟩
  have hrefused : (match validateState sha256Utf8
      (afterReadings ⟨1000, by decide⟩ ⟨500, by decide⟩) with
      | .error e => e.code == .actionExecutionStateInvalid
      | .ok _ => false) = true := by
    decide +kernel
  split at hrefused
  · next e he => exact ⟨e, he, by simpa using hrefused⟩
  · cases hrefused

end OperatorRuntime.Execution
