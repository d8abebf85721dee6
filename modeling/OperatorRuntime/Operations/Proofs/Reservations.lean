/-
Lost device reservations. Beside the operations there is a list of the
reservations whose renewal failed when an operation was blocked, until one
succeeds. `refresh` renews the reservation of a running operation only, so an
operation it has blocked is taken up again by what its child says, unless
no call does so while the reservation is lost (`Distrusts`).
-/
import OperatorRuntime.Lib.Passes
import OperatorRuntime.Lib.Pointwise
import OperatorRuntime.Lib.Runs
import OperatorRuntime.Operations.DigitalOperations

namespace OperatorRuntime.Operations

open Lib

variable {platform : Platform} {answers : Answers} {operations : List DigitalOperation} {id : Uuid}

-- ===== updates

variable {operation : DigitalOperation}

theorem inspect_ok (h : inspect platform operations id = .ok operation) :
    operations.find? (hasId id) = some operation := by
  simp only [inspect, bind_eq_ok] at h
  obtain ⟨_, -, h⟩ := h
  split at h
  · next found hfound =>
    cases h
    exact hfound
  · cases h

theorem validateState_nodup (h : validateState platform operations = .ok ()) :
    (operations.map DigitalOperation.id).Nodup := by
  simp only [validateState, corruptIf, bind_eq_ok, rejectIf_eq_ok, not_not] at h
  obtain ⟨_, -, hnodup⟩ := h
  exact hnodup

theorem hasId_found (h : operations.find? (hasId id) = some operation) : operation.id = id := by
  have hid := List.find?_some h
  simpa [hasId] using hid

/-- What a written state comes to: the operation of the call has got a state,
and every other one was there. -/
structure Stores (operations : List DigitalOperation) (id : Uuid) (state : DigitalOperationState)
    (written : List DigitalOperation) : Prop where
  own : ∀ operation ∈ written, operation.id = id → operation.state = state
  other : ∀ operation ∈ written, operation.id ≠ id → operation ∈ operations

theorem Stores.trans {state : DigitalOperationState} {first second : List DigitalOperation}
    (h : Stores operations id state first) (h' : Stores first id state second) :
    Stores operations id state second := by
  constructor
  · exact h'.own
  · intro operation hmem hne
    exact h.other operation (h'.other operation hmem hne) hne

theorem update_stores {clock : ClockReading} {state : DigitalOperationState}
    {written : List DigitalOperation}
    {mutate : DigitalOperation → Result DigitalOperation}
    (h : update platform clock operations id mutate = .ok (operation, written))
    (hmutate : ∀ old mutated, operations.find? (hasId id) = some old → mutate old = .ok mutated →
      mutated.id = old.id ∧ mutated.state = state) :
    Stores operations id state written ∧ operation.id = id ∧ operation.state = state
    ∧ written.find? (hasId id) = some operation := by
  simp only [update, bind_eq_ok] at h
  obtain ⟨old, hold, mutated, hmutated, updatedAt, -, _, -, _, hvalid, h⟩ := h
  cases h
  have hfind := inspect_ok hold
  obtain ⟨hid, hstate⟩ := hmutate old mutated hfind hmutated
  have hown : ({ mutated with updatedAt } : DigitalOperation).id = id := hid.trans (hasId_found hfind)
  obtain ⟨before, after, hl, hwritten⟩ :=
    updateFirst_split (b := ({ mutated with updatedAt } : DigitalOperation)) hfind
  have hnodup := validateState_nodup hvalid
  rw [hwritten] at hnodup ⊢
  have hin : ({ mutated with updatedAt } : DigitalOperation) ∈
      before ++ ({ mutated with updatedAt } : DigitalOperation) :: after :=
    List.mem_append_right _ (List.mem_cons_self ..)
  refine ⟨⟨?_, ?_⟩, hown, hstate, ?_⟩
  · intro other hmem hother
    rw [List.inj_on_of_nodup_map hnodup hmem hin (hother.trans hown.symm)]
    exact hstate
  · intro other hmem hother
    rw [hl]
    rcases List.mem_append.1 hmem with hbefore | hafter
    · exact List.mem_append_left _ hbefore
    · rcases List.mem_cons.1 hafter with rfl | hafter
      · exact absurd hown hother
      · exact List.mem_append_right _ (List.mem_cons_of_mem _ hafter)
  · cases hfound : (before ++ ({ mutated with updatedAt } : DigitalOperation) :: after).find? (hasId id) with
    | none =>
      exact absurd (beq_iff_eq.2 hown) (List.find?_eq_none.1 hfound _ hin)
    | some found =>
      rw [List.inj_on_of_nodup_map hnodup (List.mem_of_find?_eq_some hfound) hin
        ((hasId_found hfound).trans hown.symm)]

theorem recordFinalOutcome_stores {recorded : DigitalOperation} {written : List DigitalOperation}
    (hfind : operations.find? (hasId operation.id) = some operation)
    (h : recordFinalOutcome platform answers operations operation = .ok (recorded, written)) :
    Stores operations operation.id operation.state written := by
  have hsettle : ∀ old mutated, operations.find? (hasId operation.id) = some old →
      (Except.ok (settle answers operation old) : Result DigitalOperation) = .ok mutated →
      mutated.id = old.id ∧ mutated.state = operation.state := by
    intro old mutated hold hmutated
    rw [hfind] at hold
    cases hold
    cases hmutated
    rw [settle]
    split
    · exact ⟨rfl, rfl⟩
    · exact ⟨rfl, rfl⟩
  simp only [recordFinalOutcome] at h
  split at h
  · simp only [bind_eq_ok] at h
    obtain ⟨_, -, _, -, _, -, h⟩ := h
    exact (update_stores h hsettle).1
  · simp only [bind_eq_ok] at h
    obtain ⟨_, -, h⟩ := h
    exact (update_stores h hsettle).1

theorem thenOutcome_stores {state : DigitalOperationState}
    {result : Result (DigitalOperation × List DigitalOperation)}
    (hresult : ∀ operation written, result = .ok (operation, written) →
      Stores operations id state written ∧ operation.id = id ∧ operation.state = state
        ∧ written.find? (hasId id) = some operation)
    {written : List DigitalOperation} (h : written ∈ (thenOutcome platform answers result).written) :
    Stores operations id state written := by
  unfold thenOutcome at h
  split at h
  · cases h
  · next updated first =>
    obtain ⟨hstores, rfl, rfl, hfind⟩ := hresult updated first rfl
    split at h
    · split at h
      · next recorded settled hrecorded =>
        have hsettled := recordFinalOutcome_stores hfind hrecorded
        simp only [List.mem_cons, List.not_mem_nil, or_false] at h
        rcases h with rfl | rfl
        · exact hstores
        · exact hstores.trans hsettled
      · simp only [List.mem_singleton] at h
        rw [h]
        exact hstores
    · simp only [List.mem_singleton] at h
      rw [h]
      exact hstores

theorem applyRefreshed_state {refreshed : Refreshed} {mutated : DigitalOperation}
    (h : applyRefreshed platform refreshed operation = .ok mutated) :
    mutated.id = operation.id ∧ mutated.state = refreshed.state := by
  unfold applyRefreshed at h
  split at h
  · split at h
    · cases h
    · simp only [bind_eq_ok] at h
      obtain ⟨_, -, h⟩ := h
      cases h
      exact ⟨rfl, rfl⟩
  · cases h
    exact ⟨rfl, rfl⟩

theorem mem_of_written {result : Result (DigitalOperation × List DigitalOperation)}
    {written : List DigitalOperation} (h : written ∈ (Ran.of result).written) :
    ∃ operation, result = .ok (operation, written) := by
  unfold Ran.of at h
  split at h
  · next operation first =>
    simp only [List.mem_singleton] at h
    exact ⟨operation, by rw [h]⟩
  · cases h

-- ===== calls

def reachedState (operations : List DigitalOperation) (written : List (List DigitalOperation))
    (reached : Nat) : List DigitalOperation :=
  ((written.take reached).getLast?).getD operations

inductive Call
  | start
  | refresh
  | pause
  | cancel
  | promoteOrganization
deriving DecidableEq

def perform (platform : Platform) (answers : Answers) (operations : List DigitalOperation) (id : Uuid) :
    Call → Ran
  | .start => start platform answers operations id
  | .refresh => refresh platform answers operations id
  | .pause => pause platform answers operations id
  | .cancel => cancel platform answers operations id
  | .promoteOrganization => promoteOrganization platform answers operations id

/-- Whether a call takes an operation up, by what is answered to it. -/
def takesUp (answers : Answers) (operation : DigitalOperation) : Call → Prop
  | .start =>
    (operation.state = .pending ∨ operation.state = .paused)
      ∧ assertWorldConditions answers operation.preconditions "precondition" = .ok ()
      ∧ startChild answers operation = .ok ()
  | .refresh =>
    match answers.child with
    | .ok child =>
      child.state = .running
        ∨ child.state = .verified ∧ checkWorldConditions answers operation.postconditions = .ok none
    | .error _ => False
  | .promoteOrganization => operation.mode = .organization ∧ answers.promoted = .ok ()
  | .pause => False
  | .cancel => False

/-- The states of an operation that is taken up. -/
def Trusted (state : DigitalOperationState) : Prop :=
  state = .running ∨ state = .verified

theorem mapUnderlyingState_eq_running {state : ChildState} (h : mapUnderlyingState state = .running) :
    state = .running := by
  cases state <;> first | rfl | cases h

theorem mapUnderlyingState_eq_verified {state : ChildState} (h : mapUnderlyingState state = .verified) :
    state = .verified := by
  cases state <;> first | rfl | cases h

theorem refreshedState_trusted {refreshed : Refreshed}
    (h : refreshedState answers operation = .ok refreshed) (htrusted : Trusted refreshed.state) :
    takesUp answers operation .refresh := by
  simp only [refreshedState, bind_eq_ok] at h
  obtain ⟨_, -, child, hchild, h⟩ := h
  simp only [takesUp, hchild]
  split at h
  · next hstate =>
    apply Or.inr
    refine ⟨mapUnderlyingState_eq_verified hstate, ?_⟩
    simp only [bind_eq_ok] at h
    obtain ⟨reason, hreason, h⟩ := h
    cases reason with
    | some reason =>
      cases h
      simp [Trusted] at htrusted
    | none => exact hreason
  · next hstate =>
    cases h
    rcases htrusted with hrun | hver
    · exact .inl (mapUnderlyingState_eq_running hrun)
    · exact absurd hver hstate

theorem perform_stores {call : Call} {written : List DigitalOperation}
    (h : written ∈ (perform platform answers operations id call).written) :
    ∃ state, Stores operations id state written
    ∧ (Trusted state → ∃ operation ∈ operations, operation.id = id ∧ takesUp answers operation call) := by
  have hfound : ∀ {operation}, inspect platform operations id = .ok operation →
      takesUp answers operation call →
      ∃ operation ∈ operations, operation.id = id ∧ takesUp answers operation call :=
    fun hinspect htakes =>
      ⟨_, List.mem_of_find?_eq_some (inspect_ok hinspect), hasId_found (inspect_ok hinspect), htakes⟩
  cases call with
  | start =>
    obtain ⟨operation, hran⟩ := mem_of_written h
    simp only [bind_eq_ok, rejectIf_eq_ok] at hran
    obtain ⟨current, hcurrent, _, hstartable, _, hworld, _, hchild, hran⟩ := hran
    refine ⟨.running, (update_stores hran ?_).1, fun _ => hfound hcurrent ⟨?_, hworld, hchild⟩⟩
    · intro old mutated _ hmutated
      cases hmutated
      exact ⟨rfl, rfl⟩
    · by_contra hnot
      exact hstartable (not_or.1 hnot)
  | refresh =>
    replace h : written ∈ (refresh platform answers operations id).written := h
    unfold refresh at h
    split at h
    · cases h
    · next current hcurrent =>
      split at h
      · next reason hreason =>
        obtain ⟨operation, hran⟩ := mem_of_written h
        refine ⟨.blocked, (update_stores hran ?_).1, by simp [Trusted]⟩
        intro old mutated _ hmutated
        cases hmutated
        exact ⟨rfl, rfl⟩
      · cases hrefreshed : refreshedState answers current with
        | error e =>
          rw [hrefreshed] at h
          cases h
        | ok refreshed =>
          refine ⟨refreshed.state, thenOutcome_stores ?_ h,
            fun htrusted => hfound hcurrent (refreshedState_trusted hrefreshed htrusted)⟩
          intro operation first hran
          rw [hrefreshed] at hran
          refine update_stores hran ?_
          intro old mutated _ hmutated
          exact applyRefreshed_state hmutated
  | pause =>
    obtain ⟨operation, hran⟩ := mem_of_written h
    simp only [bind_eq_ok] at hran
    obtain ⟨current, -, child, -, paused, -, _, -, hran⟩ := hran
    refine ⟨.paused, (update_stores hran ?_).1, by simp [Trusted]⟩
    intro old mutated _ hmutated
    cases hmutated
    exact ⟨rfl, rfl⟩
  | cancel =>
    refine ⟨.cancelled, thenOutcome_stores ?_ h, by simp [Trusted]⟩
    intro operation first hran
    simp only [bind_eq_ok] at hran
    obtain ⟨current, -, child, -, cancelled, -, _, -, hran⟩ := hran
    refine update_stores hran ?_
    intro old mutated _ hmutated
    cases hmutated
    exact ⟨rfl, rfl⟩
  | promoteOrganization =>
    obtain ⟨operation, hran⟩ := mem_of_written h
    simp only [bind_eq_ok, rejectIf_eq_ok] at hran
    obtain ⟨current, hcurrent, _, hmode, _, hpromoted, hran⟩ := hran
    refine ⟨.running, (update_stores hran ?_).1, fun _ => hfound hcurrent ⟨?_, hpromoted⟩⟩
    · intro old mutated _ hmutated
      cases hmutated
      exact ⟨rfl, rfl⟩
    · by_contra hnot
      exact hmode (.inl hnot)

-- ===== runs

/-- The operations, and which of them (by id) have lost which reservation. -/
structure World where
  operations : List DigitalOperation
  lost : List (Uuid × Uuid)

inductive Act
  | call (call : Call) (id : Uuid) (answers : Answers) (reached : Nat)
  /-- A heartbeat of the reservation from elsewhere succeeds. -/
  | renewed (reservation : Uuid)

/-- The reservation whose heartbeat `refresh(id)` asks for. -/
def heartbeatOf (platform : Platform) (operations : List DigitalOperation) (id : Uuid) : Option Uuid :=
  match inspect platform operations id with
  | .ok current =>
    if current.state = .running ∧ current.deviceReservationSessionId.isSome = true
      then current.deviceReservationId else none
  | .error _ => none

def renew (reservation : Uuid) (lost : List (Uuid × Uuid)) : List (Uuid × Uuid) :=
  lost.filter fun pair => pair.2 ≠ reservation

def lostAfter (platform : Platform) (world : World) (call : Call) (id : Uuid) (answers : Answers)
    (reached : Nat) : List (Uuid × Uuid) :=
  if call = .refresh then
    match heartbeatOf platform world.operations id with
    | none => world.lost
    | some reservation =>
      match answers.heartbeat with
      | .ok () => renew reservation world.lost
      | .error _ =>
        if reached = 0 ∨ (refresh platform answers world.operations id).written = [] then world.lost
        else (id, reservation) :: world.lost
  else world.lost

/-- One act: a call that ends after some of the states it writes are stored,
or a heartbeat from elsewhere. -/
def step (platform : Platform) (world : World) : Act → World
  | .call call id answers reached =>
    { operations := reachedState world.operations
        (perform platform answers world.operations id call).written reached
      lost := lostAfter platform world call id answers reached }
  | .renewed reservation => { world with lost := renew reservation world.lost }

def Step (platform : Platform) : World → Act → World → Prop :=
  stepsOf fun world act => some (step platform world act)

/-- No call takes up an operation that has lost its reservation. -/
def Distrusts (world : World) : Act → Prop
  | .call call id answers _ =>
    (∃ pair ∈ world.lost, pair.1 = id) →
      ∀ operation ∈ world.operations, operation.id = id → ¬ takesUp answers operation call
  | .renewed _ => True

/-- No operation that has lost its reservation is running or verified. -/
def Fenced (world : World) : Prop :=
  ∀ pair ∈ world.lost, ∀ operation ∈ world.operations, operation.id = pair.1 → ¬ Trusted operation.state

theorem reachedState_cases (operations : List DigitalOperation)
    (written : List (List DigitalOperation)) (reached : Nat) :
    ((reached = 0 ∨ written = []) ∧ reachedState operations written reached = operations)
    ∨ reachedState operations written reached ∈ written := by
  unfold reachedState
  cases hlast : (written.take reached).getLast? with
  | none =>
    rw [List.getLast?_eq_none_iff, List.take_eq_nil_iff] at hlast
    exact .inl ⟨hlast, rfl⟩
  | some state => exact .inr (List.mem_of_mem_take (List.mem_of_getLast? hlast))

theorem refresh_blocks {reservation : Uuid} {code : Option String} {written : List DigitalOperation}
    (hheartbeat : heartbeatOf platform operations id = some reservation)
    (hfailed : answers.heartbeat = .error code)
    (h : written ∈ (refresh platform answers operations id).written) :
    Stores operations id .blocked written := by
  unfold refresh at h
  unfold heartbeatOf at hheartbeat
  cases hinspect : inspect platform operations id with
  | error e =>
    rw [hinspect] at h
    cases h
  | ok current =>
    simp only [hinspect] at h hheartbeat
    split at hheartbeat
    · next hasks =>
      obtain ⟨hrunning, hsession⟩ := hasks
      obtain ⟨session, hsession⟩ := Option.isSome_iff_exists.1 hsession
      have hfailure : renewalFailure answers current = some (renewalReason code) := by
        simp [renewalFailure, hheartbeat, hrunning, hsession, hfailed]
      simp only [hfailure] at h
      obtain ⟨operation, hran⟩ := mem_of_written h
      refine (update_stores hran ?_).1
      intro old mutated _ hmutated
      cases hmutated
      exact ⟨rfl, rfl⟩
    · cases hheartbeat

variable {world : World}

theorem mem_lostAfter {call : Call} {reached : Nat} {pair : Uuid × Uuid}
    (h : pair ∈ lostAfter platform world call id answers reached) : pair ∈ world.lost ∨ pair.1 = id
        ∧ ¬ (reached = 0 ∨ (perform platform answers world.operations id call).written = [])
        ∧ ∀ written ∈ (perform platform answers world.operations id call).written,
            Stores world.operations id .blocked written := by
  unfold lostAfter at h
  split at h
  · next hrefresh =>
    subst hrefresh
    split at h
    · exact .inl h
    · next reservation hheartbeat =>
      split at h
      · exact .inl (List.mem_filter.1 h).1
      · next code hfailed =>
        split at h
        · exact .inl h
        · next hreached =>
          rcases List.mem_cons.1 h with rfl | h
          · exact .inr ⟨rfl, hreached, fun written hwritten =>
              refresh_blocks hheartbeat hfailed hwritten⟩
          · exact .inl h
  · exact .inl h

theorem fenced_renew {reservation : Uuid} (h : Fenced world) :
    Fenced { world with lost := renew reservation world.lost } := by
  intro pair hpair
  exact h pair (List.mem_filter.1 hpair).1

/-- One act of the runtime or of a child. -/
theorem fenced_step {act : Act} (h : Fenced world) (hdistrusts : Distrusts world act) :
    Fenced (step platform world act) := by
  cases act with
  | renewed reservation => exact fenced_renew h
  | call call id answers reached =>
    intro pair hpair operation hoperation hid
    replace hoperation : operation ∈ reachedState world.operations
      (perform platform answers world.operations id call).written reached := hoperation
    rcases mem_lostAfter hpair with hold | ⟨hpairId, hreached, hblocked⟩
    · rcases reachedState_cases world.operations
        (perform platform answers world.operations id call).written reached with
        ⟨-, hsame⟩ | hwritten
      · rw [hsame] at hoperation
        exact h pair hold operation hoperation hid
      · obtain ⟨state, hstores, htrusted⟩ := perform_stores hwritten
        by_cases hown : operation.id = id
        · intro htrust
          rw [hstores.own operation hoperation hown] at htrust
          obtain ⟨before, hmem, hbefore, htakes⟩ := htrusted htrust
          exact hdistrusts ⟨pair, hold, hid.symm.trans hown⟩ before hmem hbefore htakes
        · exact h pair hold operation (hstores.other operation hoperation hown) hid
    · rcases reachedState_cases world.operations
        (perform platform answers world.operations id call).written reached with
        ⟨hnothing, -⟩ | hwritten
      · exact absurd hnothing hreached
      · rw [(hblocked _ hwritten).own operation hoperation (hid.trans hpairId)]
        simp [Trusted]

/-- In a run that never takes up an operation that has lost its reservation,
no such operation is stored running or verified before a heartbeat of the
reservation succeeds. -/
theorem lost_reservation_distrusted {operations : List DigitalOperation} {acts : List Act} {world : World}
    (hrun : Run (Where (Step platform) Distrusts) ⟨operations, []⟩ acts world) : Fenced world := by
  refine hrun.invariant (fun pair hpair => (nomatch hpair)) ?_
  intro world next act hfenced hstep
  obtain ⟨hstep, hdistrusts⟩ := hstep
  cases hstep
  exact fenced_step hfenced hdistrusts

-- ===== sample

def sampleOperationId : Uuid := onesUuid

def sampleReservation : Uuid := twosUuid

def sampleMission : Uuid := ⟨"33333333-3333-4333-8333-333333333333", threes_uuid⟩

def anyDigest : Hex64 := ⟨String.ofList (List.replicate 64 'a'), as_hex64⟩

def anyPlatform : Platform where
  sha256 _ := anyDigest

def sampleInstant : Instant := ⟨1000, by decide⟩

def sampleOperation : DigitalOperation where
  id := sampleOperationId
  objective := "ship"
  scopeKey := "scope"
  successConditions := ["shipped"]
  state := .running
  mode := .team
  preconditions := []
  postconditions := []
  selectedStrategy := "direct"
  submissionDigest := anyDigest
  planDigest := none
  selectedProcedureId := none
  capturesProcedure := false
  deviceReservationId := some sampleReservation
  deviceAllocationRequestDigest := some anyDigest
  deviceReservationSessionId := some sampleMission
  deviceReservationStatus := some .active
  deviceReservationErrorCode := none
  teamMissionId := some sampleMission
  organizationProgramId := none
  lastBlockReason := none
  outcomeRecorded := false
  verificationEvidenceDigest := none
  receiptDigest := none
  updatedAt := sampleInstant

def lostAnswers (mission : ChildState) : Answers where
  child := .ok ⟨sampleMission, mission⟩
  started := .ok ⟨sampleMission, .running⟩
  paused := .ok ⟨sampleMission, .paused⟩
  cancelled := .ok ⟨sampleMission, .cancelled⟩
  promoted := .ok ()
  heartbeat := .error (some "DEVICE_POOL_RESERVATION_LOST")
  fact _ := .ok (.unresolved "unknown")
  evidence := .ok anyDigest
  finalEvidence := .ok anyDigest
  optimizer := .ok ()
  captured := .ok sampleMission
  outcome := .ok ()
  released := .error none
  clock := some sampleInstant
  finalClock := some sampleInstant

def sampleWorld : World := ⟨[sampleOperation], []⟩

def sampleRefresh (mission : ChildState) : Act :=
  .call .refresh sampleOperationId (lostAnswers mission) 1

/-- The device is lost under a paused mission: the operation stays out. -/
theorem lost_reservation_paused : ∃ world, Run (Where (Step anyPlatform) Distrusts) sampleWorld
        [sampleRefresh .running, sampleRefresh .paused] world
      ∧ world.lost = [(sampleOperationId, sampleReservation)]
      ∧ world.operations.map DigitalOperation.state = [.paused] ∧ Fenced world := by
  have hfirst : Run (Where (Step anyPlatform) Distrusts) sampleWorld ([] ++ [sampleRefresh .running]) _ :=
    Run.snoc Run.nil ⟨rfl, fun ⟨_, hpair, _⟩ => (nomatch hpair)⟩
  have hboth := hfirst.snoc (a := sampleRefresh .paused) ⟨rfl, ?_⟩
  · exact ⟨_, hboth, by decide +kernel, by decide +kernel, lost_reservation_distrusted hboth⟩
  · intro _ operation _ _ htakes
    rcases htakes with hrunning | ⟨hverified, -⟩
    · cases hrunning
    · cases hverified

/-- The device is lost under a running mission: the next refresh stores the
operation running, and no heartbeat has been asked for. -/
theorem lost_reservation_trusted :
    ¬ ∀ {operations : List DigitalOperation} {acts : List Act} {world : World},
      Run (Step anyPlatform) ⟨operations, []⟩ acts world → Fenced world := by
  intro hall
  have hrun : Run (Step anyPlatform) sampleWorld ([] ++ [sampleRefresh .running] ++ [sampleRefresh .running]) _ :=
    (Run.nil.snoc rfl).snoc rfl
  have hlost : (sampleOperationId, sampleReservation) ∈
      (step anyPlatform (step anyPlatform sampleWorld (sampleRefresh .running))
        (sampleRefresh .running)).lost := by
    decide +kernel
  have hstored : (sampleOperationId, DigitalOperationState.running) ∈
      (step anyPlatform (step anyPlatform sampleWorld (sampleRefresh .running))
        (sampleRefresh .running)).operations.map fun operation => (operation.id, operation.state) := by
    decide +kernel
  obtain ⟨operation, hmem, hpair⟩ := List.mem_map.1 hstored
  obtain ⟨hid, hstate⟩ := Prod.mk.injEq .. ▸ hpair
  exact hall hrun _ hlost operation hmem hid (.inl hstate)

end OperatorRuntime.Operations
