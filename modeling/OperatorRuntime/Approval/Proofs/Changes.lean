/-
Every call of the approval store makes one of the moves: an inversion
lemma for each operation, and `Turn.run_ran` over all of them.
-/
import OperatorRuntime.Approval.Proofs.Moves

namespace OperatorRuntime.Approval

-- ===== metadata

theorem ValidRecord.withoutLease {r : ApprovalRecord} (h : ValidRecord r)
    (hstatus : r.status ≠ .approved) : withoutLease r = r := by
  obtain ⟨_, hpending, hrest⟩ := bind_eq_ok.1 h.status
  obtain ⟨_, -, hrest⟩ := bind_eq_ok.1 hrest
  obtain ⟨_, hconsumed, hdenied⟩ := bind_eq_ok.1 hrest
  have hid : r.executionLeaseId = none := by
    rw [← Option.not_isSome_iff_eq_none]
    intro hsome
    cases hs : r.status with
    | pending => exact corruptIf_eq_ok.1 hpending (by simp [hs, hsome])
    | approved => exact hstatus hs
    | consumed => exact corruptIf_eq_ok.1 hconsumed (by simp [hs, hsome])
    | denied => exact corruptIf_eq_ok.1 hdenied (by simp [hs, hsome])
  have hexp : r.executionLeaseExpiresAt = none := by
    rw [← Option.not_isSome_iff_eq_none, ← h.lease, hid]
    exact Bool.false_ne_true
  exact withoutLease_eq_self hid hexp

theorem not_active_of_withoutLease {r : ApprovalRecord} (now : Instant) (h : withoutLease r = r) :
    activeExecutionLease r now = false := by
  rw [← h]
  rfl

section
variable {turn : Turn} {stored : State}

variable {authorityHash : Hex64} {now : Instant} {r : ApprovalRecord}

theorem newRecord_eq_ok {action : ActionRequest} {actionHash : Hex64} {requestId : Uuid}
    (h : newRecord action actionHash authorityHash requestId now = .ok r) :
    Requested now r ∧ r.actionId = action.id ∧ r.approvalRequestId = requestId := by
  unfold newRecord at h
  obtain ⟨expires, hexpires, h⟩ := bind_eq_ok.1 h
  cases h
  exact ⟨⟨rfl, rfl, hexpires, rfl, rfl, rfl, rfl⟩, rfl, rfl⟩

theorem requireIdle_eq_ok {x : ApprovalRecord} {message : String} (hvalid : ValidRecord r)
    (h : requireIdle r now message = .ok x) :
    x = withoutLease r ∧ activeExecutionLease r now = false := by
  unfold requireIdle at h
  split at h
  · dsimp only at h
    split at h
    · cases h
    · next hidle =>
      have hidle' : activeExecutionLease r now = false := by
        rw [← activeExecutionLease_clear]
        exact Bool.eq_false_iff.2 hidle
      cases h
      exact ⟨clearExpiredExecutionLease_of_idle hvalid.lease hidle', hidle'⟩
  · next hstatus =>
    cases h
    have hself := hvalid.withoutLease hstatus
    exact ⟨hself.symm, not_active_of_withoutLease now hself⟩

theorem requireIdle_of_prune (hvalid : ValidState stored) {id : String} {x y : ApprovalRecord}
    {message : String} (hx : recordOf? (prune stored now) id = some x)
    (h : requireIdle x now message = .ok y) : y = x ∧ activeExecutionLease x now = false := by
  obtain ⟨r, hr, hcases, hclear, -⟩ := recordOf?_of_prune hvalid hx
  unfold requireIdle at h
  split at h
  · next happroved =>
    dsimp only at h
    rw [hclear happroved] at h
    split at h
    · cases h
    · next hidle =>
      cases h
      exact ⟨rfl, Bool.eq_false_iff.2 hidle⟩
  · next hstatus =>
    cases h
    refine ⟨rfl, ?_⟩
    rcases hcases with rfl | ⟨-, -, rfl⟩
    · exact not_active_of_withoutLease now
        ((hvalid.valid x (recordOf?_mem hr).1).withoutLease hstatus)
    · rfl

theorem changes_of_put {y : ApprovalRecord} {events : List Event}
    (hr : recordOf? stored r.actionId = some r) (hid : y.actionId = r.actionId)
    (hmove : Moves turn (some r) (some y) events) : Changes turn stored (put stored y) events := by
  refine ⟨r.actionId, ?_, ?_⟩
  · rw [recordOf?_put, if_pos hid.symm, hr]
    exact hmove
  · intro id hne
    rw [recordOf?_put, if_neg (by rw [hid]; exact hne)]
    exact Tidied.kept _

theorem changes_of_remove {events : List Event} (hr : recordOf? stored r.actionId = some r)
    (hmove : Moves turn (some r) none events) :
    Changes turn stored (removeRecord stored r.actionId) events := by
  refine ⟨r.actionId, ?_, ?_⟩
  · rw [recordOf?_removeRecord, if_pos rfl, hr]
    exact hmove
  · intro id hne
    rw [recordOf?_removeRecord, if_neg hne]
    exact Tidied.kept _

theorem requireRecord_eq_ok {state : State} {actionId : String}
    (h : requireRecord state actionId = .ok r) :
    recordOf? state actionId = some r ∧ r.actionId = actionId := by
  unfold requireRecord at h
  split at h
  · next x hx =>
    cases h
    exact ⟨hx, (recordOf?_mem hx).2⟩
  · cases h

theorem requireApprovalRequest_eq_ok {approvalRequestId : String} {u : Unit}
    (h : requireApprovalRequest r approvalRequestId = .ok u) :
    approvalRequestId = r.approvalRequestId.val :=
  Decidable.not_not.1 (rejectIf_eq_ok.1 h)

theorem approvedFor_eq_true {hash : Hex64} : approvedFor r hash authorityHash = true
    ↔ r.status = .approved ∧ r.actionHash = hash ∧ r.authorityHash = authorityHash := by
  simp [approvedFor, and_assoc]

theorem requireApproved_eq_ok {state : State} {action : ActionRequest} {hash : Hex64}
    (h : requireApproved state action hash authorityHash = .ok r) :
    recordOf? state action.id = some r ∧ r.actionId = action.id
    ∧ approvedFor r hash authorityHash = true := by
  unfold requireApproved at h
  obtain ⟨x, hx, h⟩ := bind_eq_ok.1 h
  obtain ⟨_, hfor, h⟩ := bind_eq_ok.1 h
  cases h
  obtain ⟨hfind, hid⟩ := requireRecord_eq_ok hx
  refine ⟨hfind, hid, ?_⟩
  simpa using rejectIf_eq_ok.1 hfor

end

-- ===== operations

/-- What a call leaves is valid, and changed by the moves alone. -/
def Ran (turn : Turn) (stored : State) (outcome : State × List Event) : Prop :=
  ValidState outcome.1 ∧ Changes turn stored outcome.1 outcome.2

section
variable {sha256 : Sha256} {env : Environment} {stored : State} (hvalid : ValidState stored)
include hvalid

theorem ran_failed (turn : Turn) : Ran turn stored (stored, []) :=
  ⟨hvalid, Changes.refl turn stored⟩

theorem list_ran : Ran ⟨env, .list⟩ stored (Turn.run sha256 ⟨env, .list⟩ stored) := by
  unfold Turn.run list
  dsimp only [Environment.made_now]
  rcases mutate_cases env hvalid fun state =>
    .ok (prune state env.now, (prune state env.now).reverse) with
      ⟨state, value, hfn, hstate, -, heq⟩ | ⟨e, heq⟩
  · cases hfn
    rw [heq]
    exact ⟨hstate, @changes_prune ⟨env, .list⟩ _ hvalid trivial⟩
  · rw [heq]
    exact ran_failed hvalid _

variable {x : ApprovalRecord} {own : String}

theorem changes_of_prune_put_self {turn : Turn} (hprunes : turn.call.prunes)
    (hx : recordOf? (prune stored turn.env.now) own = some x) :
    Changes turn stored (put (prune stored turn.env.now) x) [] := by
  refine ⟨own, Moves.tidied ?_, ?_⟩
  · rw [recordOf?_put_self hx]
    exact tidied_prune hvalid hprunes own
  · intro id _
    rw [recordOf?_put_self hx]
    exact tidied_prune hvalid hprunes id

theorem cleared_of_prune {now : Instant} {id : String}
    (hx : recordOf? (prune stored now) id = some x) (happroved : x.status = .approved) :
    clearExpiredExecutionLease x now = x := by
  obtain ⟨-, -, -, hclear, -⟩ := recordOf?_of_prune hvalid hx
  exact hclear happroved

theorem changes_of_request {turn : Turn} (hprunes : turn.call.prunes) {record : ApprovalRecord}
    (hdrawn : record.approvalRequestId ∈ turn.call.draws) (hnew : Requested turn.env.now record)
    (hid : record.actionId = own) (hx : recordOf? (prune stored turn.env.now) own = some x)
    (hidle : activeExecutionLease x turn.env.now = false) :
    Changes turn stored (put (put (prune stored turn.env.now) x) record) [] := by
  obtain ⟨r, hr, -, -, hsame⟩ := recordOf?_of_prune hvalid hx
  refine ⟨own, ?_, ?_⟩
  · rw [recordOf?_put, if_pos hid.symm, recordOf?_put_self hx, hx, Option.map_some]
    refine Moves.requested hprunes hdrawn hnew ?_
    intro y hy
    rw [hr] at hy
    cases hy
    exact .inr (by rw [hsame, hidle])
  · intro id hne
    rw [recordOf?_put, if_neg (by rw [hid]; exact hne), recordOf?_put_self hx]
    exact tidied_prune hvalid hprunes id

theorem changes_of_first_request {turn : Turn} (hprunes : turn.call.prunes)
    {record : ApprovalRecord} (hdrawn : record.approvalRequestId ∈ turn.call.draws)
    (hnew : Requested turn.env.now record)
    (hnone : recordOf? (prune stored turn.env.now) record.actionId = none) :
    Changes turn stored (prune stored turn.env.now ++ [record]) [] := by
  refine ⟨record.actionId, ?_, ?_⟩
  · rw [recordOf?_append hnone, if_pos rfl]
    refine Moves.requested hprunes hdrawn hnew ?_
    intro y hy
    rw [recordOf?_prune hvalid, hy, Option.bind_some] at hnone
    exact .inl (lapsed_of_pruneRecord hnone)
  · intro id hne
    rw [recordOf?_append hnone, if_neg hne]
    exact tidied_prune hvalid hprunes id

theorem register_ran (action : ActionRequest) (authority : Option ApprovalAuthorityContext)
    (requestId : Uuid) : Ran ⟨env, .register action authority requestId⟩ stored
      (Turn.run sha256 ⟨env, .register action authority requestId⟩ stored) := by
  unfold Turn.run register
  dsimp only [Environment.made_now]
  cases approvalAuthorityFingerprint sha256 authority with
  | error e => exact ran_failed hvalid _
  | ok bound =>
    dsimp only
    rcases mutate_cases env hvalid _ with
      ⟨state, value, hfn, hstate, -, heq⟩ | ⟨e, heq⟩
    · rw [heq]
      refine ⟨hstate, ?_⟩
      cases hx : recordOf? (prune stored env.now) action.id with
      | none =>
        rw [hx] at hfn
        dsimp only at hfn
        obtain ⟨record, hrecord, hfn⟩ := bind_eq_ok.1 hfn
        obtain ⟨_, -, hfn⟩ := bind_eq_ok.1 hfn
        cases hfn
        obtain ⟨hnew, hid, hrequest⟩ := newRecord_eq_ok hrecord
        refine @changes_of_first_request _ hvalid
          ⟨env, .register action authority requestId⟩ trivial _ ?_ hnew ?_
        · rw [hrequest]
          exact List.mem_singleton.2 rfl
        · rw [hid]
          exact hx
      | some x =>
        rw [hx] at hfn
        dsimp only at hfn
        obtain ⟨_, -, hfn⟩ := bind_eq_ok.1 hfn
        obtain ⟨y, hy, hfn⟩ := bind_eq_ok.1 hfn
        obtain ⟨hsame, hidle⟩ := requireIdle_of_prune hvalid hx hy
        rw [hsame] at hfn
        split at hfn
        · cases hfn
          exact @changes_of_prune_put_self _ hvalid _ _
            ⟨env, .register action authority requestId⟩ trivial hx
        split at hfn
        · cases hfn
          exact @changes_of_prune_put_self _ hvalid _ _
            ⟨env, .register action authority requestId⟩ trivial hx
        · obtain ⟨record, hrecord, hfn⟩ := bind_eq_ok.1 hfn
          cases hfn
          obtain ⟨hnew, hid, hrequest⟩ := newRecord_eq_ok hrecord
          refine @changes_of_request _ hvalid _ _
            ⟨env, .register action authority requestId⟩ trivial _ ?_ hnew hid hx hidle
          rw [hrequest]
          exact List.mem_singleton.2 rfl
    · rw [heq]
      exact ran_failed hvalid _

theorem isApproved_ran (action : ActionRequest) (authority : Option ApprovalAuthorityContext) :
    Ran ⟨env, .isApproved action authority⟩ stored
      (Turn.run sha256 ⟨env, .isApproved action authority⟩ stored) := by
  have hpruned : Changes ⟨env, .isApproved action authority⟩ stored (prune stored env.now) [] :=
    @changes_prune ⟨env, .isApproved action authority⟩ _ hvalid trivial
  unfold Turn.run isApproved
  dsimp only [Environment.made_now]
  cases approvalAuthorityFingerprint sha256 authority with
  | error e => exact ran_failed hvalid _
  | ok bound =>
    dsimp only
    rcases mutate_cases env hvalid _ with
      ⟨state, value, hfn, hstate, -, heq⟩ | ⟨e, heq⟩
    · rw [heq]
      refine ⟨hstate, ?_⟩
      cases hx : recordOf? (prune stored env.now) action.id with
      | none =>
        rw [hx] at hfn
        cases hfn
        exact hpruned
      | some x =>
        rw [hx] at hfn
        dsimp only at hfn
        split at hfn
        · cases hfn
          exact hpruned
        · next hfor =>
          have happroved := (approvedFor_eq_true.1 (by simpa using hfor)).1
          have hself := @changes_of_prune_put_self _ hvalid _ _
            ⟨env, .isApproved action authority⟩ trivial hx
          rw [cleared_of_prune hvalid hx happroved] at hfn
          split at hfn
          · cases hfn
            exact hself
          · cases hfn
            exact hself
    · rw [heq]
      exact ran_failed hvalid _

variable {leaseId : Uuid}

omit hvalid in
theorem claim_eq_ok {action : ActionRequest} {authority : Option ApprovalAuthorityContext}
    {bound : Hex64} {state : State} {answer : Option Uuid} (hvalid : ValidState stored)
    (hbound : approvalAuthorityFingerprint sha256 authority = .ok bound)
    (h : claim sha256 env stored action authority leaseId = (state, .ok answer)) :
    ValidState state ∧ (answer = none ∧ (state = prune stored env.now
        ∨ ∃ x, recordOf? (prune stored env.now) action.id = some x
            ∧ state = put (prune stored env.now) x)
      ∨ ∃ x expiresAt, recordOf? (prune stored env.now) action.id = some x
          ∧ approvedFor x (actionHash sha256 action) bound = true
          ∧ activeExecutionLease x env.now = false ∧ ¬ passed x.approvalExpiresAt env.now
          ∧ env.now.later executionLeaseMs = .ok expiresAt
          ∧ state = put (put (prune stored env.now) x) (leasedOf x leaseId expiresAt)
          ∧ answer = some leaseId) := by
  unfold claim at h
  rw [hbound] at h
  dsimp only at h
  obtain ⟨hfn, hstate⟩ := mutate_ok_cases hvalid h
  refine ⟨hstate, ?_⟩
  cases hx : recordOf? (prune stored env.now) action.id with
  | none =>
    rw [hx] at hfn
    cases hfn
    exact .inl ⟨rfl, .inl rfl⟩
  | some x =>
    rw [hx] at hfn
    dsimp only at hfn
    split at hfn
    · cases hfn
      exact .inl ⟨rfl, .inl rfl⟩
    · next hfor =>
      have hfor' : approvedFor x (actionHash sha256 action) bound = true := by
        simpa using hfor
      obtain ⟨y, hy, hfn⟩ := bind_eq_ok.1 hfn
      obtain ⟨hsame, hidle⟩ := requireIdle_of_prune hvalid hx hy
      rw [hsame] at hfn
      split at hfn
      · cases hfn
        exact .inl ⟨rfl, .inr ⟨x, rfl, rfl⟩⟩
      · next hopen =>
        obtain ⟨expiresAt, hexpires, hfn⟩ := bind_eq_ok.1 hfn
        cases hfn
        exact .inr ⟨x, expiresAt, rfl, hfor', hidle, hopen, hexpires, rfl, rfl⟩

theorem claim_eq_error {action : ActionRequest} {authority : Option ApprovalAuthorityContext}
    {state : State} {e : OperatorError}
    (h : claim sha256 env.made stored action authority leaseId = (state, .error e)) :
    state = stored := by
  unfold claim at h
  cases hbound : approvalAuthorityFingerprint sha256 authority with
  | error e' =>
    rw [hbound] at h
    cases h
    rfl
  | ok bound =>
    rw [hbound] at h
    dsimp only at h
    rcases mutate_cases env hvalid _ with
      ⟨state', value, -, -, -, heq⟩ | ⟨e', heq⟩
    · rw [heq] at h
      cases h
    · rw [heq] at h
      cases h
      rfl

omit hvalid in
theorem recordOf?_leased {state : State} {expiresAt : Instant} (hx : recordOf? state own = some x) :
    recordOf? (put (put state x) (leasedOf x leaseId expiresAt)) own
    = some (leasedOf x leaseId expiresAt) := by
  rw [recordOf?_put, recordOf?_put_self hx, hx]
  exact if_pos (recordOf?_mem hx).2.symm

theorem claim_ran (action : ActionRequest) (authority : Option ApprovalAuthorityContext)
    (leaseId : Uuid) : Ran ⟨env, .claim action authority leaseId⟩ stored
      (Turn.run sha256 ⟨env, .claim action authority leaseId⟩ stored) := by
  unfold Turn.run
  dsimp only [Environment.made_now]
  cases hclaim : claim sha256 env.made stored action authority leaseId with
  | mk state answer =>
    cases answer with
    | error e =>
      rw [claim_eq_error hvalid hclaim]
      exact ran_failed hvalid _
    | ok answer =>
      cases hbound : approvalAuthorityFingerprint sha256 authority with
      | error e =>
        rw [claim, hbound] at hclaim
        cases hclaim
      | ok bound =>
        obtain ⟨hstate, hwritten⟩ := claim_eq_ok hvalid hbound hclaim
        refine ⟨hstate, ?_⟩
        rcases hwritten with ⟨rfl, rfl | ⟨x, hx, rfl⟩⟩ |
          ⟨x, expiresAt, hx, hfor, hidle, hopen, hexpires, rfl, rfl⟩
        · exact @changes_prune ⟨env, .claim action authority leaseId⟩ _ hvalid trivial
        · exact @changes_of_prune_put_self _ hvalid _ _
            ⟨env, .claim action authority leaseId⟩ trivial hx
        · obtain ⟨r, hr, hcases, -, hsame⟩ := recordOf?_of_prune hvalid hx
          have hid : x.actionId = action.id := (recordOf?_mem hx).2
          have hlookup := @recordOf?_leased x _ leaseId _ expiresAt hx
          have hleased : leasedOf x leaseId expiresAt = leasedOf r leaseId expiresAt := by
            rcases hcases with rfl | ⟨-, -, rfl⟩
            · rfl
            · rfl
          have hstatus : r.status = .approved ∧ r.approvalExpiresAt = x.approvalExpiresAt := by
            rcases hcases with rfl | ⟨happroved, -, rfl⟩
            · exact ⟨(approvedFor_eq_true.1 hfor).1, rfl⟩
            · exact ⟨happroved, rfl⟩
          dsimp only
          rw [hlookup]
          refine ⟨action.id, ?_, ?_⟩
          · rw [hlookup, hr, hleased]
            refine Moves.granted trivial (List.mem_singleton.2 rfl) hstatus.1 ?_ ?_
              hexpires
            · rw [hsame, hidle]
            · rw [hstatus.2]
              exact hopen
          · intro id hne
            have hne' : ¬ id = (leasedOf x leaseId expiresAt).actionId := by
              intro heq
              exact hne (heq.trans hid)
            rw [recordOf?_put, if_neg hne', recordOf?_put_self hx]
            exact @tidied_prune ⟨env, .claim action authority leaseId⟩ _ hvalid
              trivial id

theorem unlessExpired_mutate_cases {α : Type} (message : String)
    (fn : State → Result (State × Option α)) :
    (∃ state, fn stored = .ok (state, none) ∧ ValidState state
        ∧ ∃ e, unlessExpired message (mutate env.made.disk stored fn) = (state, .error e))
      ∨ (∃ state value, fn stored = .ok (state, some value) ∧ ValidState state
        ∧ unlessExpired message (mutate env.made.disk stored fn) = (state, .ok value))
      ∨ ∃ e, unlessExpired message (mutate env.made.disk stored fn) = (stored, .error e) := by
  rcases mutate_cases env hvalid fn with
    ⟨state, value, hfn, hstate, -, heq⟩ | ⟨e, heq⟩
  · rw [heq]
    cases value with
    | none => exact .inl ⟨state, hfn, hstate, _, rfl⟩
    | some value => exact .inr (.inl ⟨state, value, hfn, hstate, rfl⟩)
  · rw [heq]
    exact .inr (.inr ⟨e, rfl⟩)

theorem recordOf?_own {id : String} {r : ApprovalRecord} (h : recordOf? stored id = some r) :
    recordOf? stored r.actionId = some r :=
  recordOf?_of_mem hvalid (recordOf?_mem h).1

omit hvalid in
theorem recordOf?_put_own {r y : ApprovalRecord} (hr : recordOf? stored r.actionId = some r)
    (hid : y.actionId = r.actionId) : recordOf? (put stored y) r.actionId = some y := by
  rw [recordOf?_put, if_pos hid.symm, hr]
  rfl

theorem approve_ran (actionId approvalRequestId : String) :
    Ran ⟨env, .approve actionId approvalRequestId⟩ stored
      (Turn.run sha256 ⟨env, .approve actionId approvalRequestId⟩ stored) := by
  unfold Turn.run approve
  dsimp only [Environment.made_now]
  rcases @unlessExpired_mutate_cases env _ hvalid _ "Approval request has expired." _ with
    ⟨state, hfn, hstate, e, heq⟩ | ⟨state, value, hfn, hstate, heq⟩ | ⟨e, heq⟩
  · rw [heq]
    refine ⟨hstate, ?_⟩
    obtain ⟨r, hr, hfn⟩ := bind_eq_ok.1 hfn
    obtain ⟨_, hrequest, hrest⟩ := bind_eq_ok.1 hfn
    obtain ⟨hfind, rfl⟩ := requireRecord_eq_ok hr
    obtain rfl := requireApprovalRequest_eq_ok hrequest
    split at hrest
    · next hover =>
      cases hrest
      exact changes_of_remove hfind (Moves.overtaken rfl hover)
    · obtain ⟨_, -, hrest⟩ := bind_eq_ok.1 hrest
      obtain ⟨_, -, hrest⟩ := bind_eq_ok.1 hrest
      cases hrest
  · rw [heq]
    refine ⟨hstate, ?_⟩
    obtain ⟨r, hr, hfn⟩ := bind_eq_ok.1 hfn
    obtain ⟨_, hrequest, hfn⟩ := bind_eq_ok.1 hfn
    obtain ⟨hfind, rfl⟩ := requireRecord_eq_ok hr
    split at hfn
    · cases hfn
    · next hopen =>
      obtain ⟨_, hpending, hfn⟩ := bind_eq_ok.1 hfn
      obtain ⟨expiresAt, hexpires, hfn⟩ := bind_eq_ok.1 hfn
      have hstatus : r.status = .pending := Decidable.not_not.1 (rejectIf_eq_ok.1 hpending)
      cases hfn
      dsimp only [eventOf]
      rw [@recordOf?_put_own _ r (approvedOf r env.now expiresAt) hfind rfl]
      exact changes_of_put hfind rfl (Moves.approved hstatus (Int.not_le.1 hopen) hexpires)
  · rw [heq]
    exact ran_failed hvalid _

theorem deny_ran (actionId approvalRequestId : String) :
    Ran ⟨env, .deny actionId approvalRequestId⟩ stored
      (Turn.run sha256 ⟨env, .deny actionId approvalRequestId⟩ stored) := by
  unfold Turn.run deny
  dsimp only [Environment.made_now]
  rcases @unlessExpired_mutate_cases env _ hvalid _ "Approval request has expired." _ with
    ⟨state, hfn, hstate, e, heq⟩ | ⟨state, value, hfn, hstate, heq⟩ | ⟨e, heq⟩
  · rw [heq]
    refine ⟨hstate, ?_⟩
    obtain ⟨r, hr, hfn⟩ := bind_eq_ok.1 hfn
    obtain ⟨_, hrequest, hfn⟩ := bind_eq_ok.1 hfn
    obtain ⟨x, hx, hfn⟩ := bind_eq_ok.1 hfn
    obtain ⟨hfind, rfl⟩ := requireRecord_eq_ok hr
    obtain ⟨rfl, hidle⟩ := requireIdle_eq_ok (hvalid.valid r (recordOf?_mem hfind).1) hx
    split at hfn
    · next hover =>
      cases hfn
      refine changes_of_remove hfind (Moves.tidied (Tidied.dropped ?_))
      rcases hover with ⟨hpending, hle⟩ | ⟨happroved, hpassed⟩
      · exact .inr (.inl ⟨hpending, hle⟩)
      · exact .inr (.inr ⟨happroved, hidle, hpassed⟩)
    · obtain ⟨_, -, hfn⟩ := bind_eq_ok.1 hfn
      cases hfn
  · rw [heq]
    refine ⟨hstate, ?_⟩
    obtain ⟨r, hr, hfn⟩ := bind_eq_ok.1 hfn
    obtain ⟨_, hrequest, hfn⟩ := bind_eq_ok.1 hfn
    obtain ⟨x, hx, hfn⟩ := bind_eq_ok.1 hfn
    obtain ⟨hfind, rfl⟩ := requireRecord_eq_ok hr
    obtain rfl := requireApprovalRequest_eq_ok hrequest
    obtain ⟨rfl, hidle⟩ := requireIdle_eq_ok (hvalid.valid r (recordOf?_mem hfind).1) hx
    split at hfn
    · cases hfn
    · obtain ⟨_, hopen, hfn⟩ := bind_eq_ok.1 hfn
      have hstatus : r.status = .pending ∨ r.status = .approved := by
        have hnot : ¬ (r.status ≠ .pending ∧ r.status ≠ .approved) := rejectIf_eq_ok.1 hopen
        by_cases hpending : r.status = .pending
        · exact .inl hpending
        · exact .inr (Decidable.not_not.1 fun happroved => hnot ⟨hpending, happroved⟩)
      cases hfn
      dsimp only [eventOf]
      rw [@recordOf?_put_own _ r (deniedOf (withoutLease r) env.now) hfind rfl]
      exact changes_of_put hfind rfl (Moves.denied rfl hstatus hidle)
  · rw [heq]
    exact ran_failed hvalid _

theorem settle_ran (action : ActionRequest) (executionLeaseId : String)
    (outcome : SettleOutcome) (authority : Option ApprovalAuthorityContext) :
    Ran ⟨env, .settle action executionLeaseId outcome authority⟩ stored
      (Turn.run sha256 ⟨env, .settle action executionLeaseId outcome authority⟩ stored) := by
  unfold Turn.run settle
  dsimp only [Environment.made_now]
  cases approvalAuthorityFingerprint sha256 authority with
  | error e =>
    cases outcome with
    | consume => exact ran_failed hvalid _
    | release => exact ran_failed hvalid _
  | ok bound =>
    dsimp only
    rcases mutate_cases env hvalid _ with
      ⟨state, value, hfn, hstate, -, heq⟩ | ⟨e, heq⟩
    · rw [heq]
      refine ⟨hstate, ?_⟩
      obtain ⟨r, hr, hfn⟩ := bind_eq_ok.1 hfn
      obtain ⟨_, hlease, hrest⟩ := bind_eq_ok.1 hfn
      obtain ⟨hfind, hid, hfor⟩ := requireApproved_eq_ok hr
      have happroved := (approvedFor_eq_true.1 hfor).1
      have hown := recordOf?_own hvalid hfind
      obtain ⟨leaseId, hleaseId, rfl⟩ : ∃ leaseId : Uuid, r.executionLeaseId = some leaseId
          ∧ leaseId.val = executionLeaseId := by
        have hmatch := (not_or.1 (rejectIf_eq_ok.1 hlease)).2
        exact Option.map_eq_some_iff.1 (Decidable.not_not.1 hmatch)
      dsimp only
      rw [hfind]
      cases outcome with
      | consume =>
        cases hrest
        exact changes_of_put hown rfl (Moves.consumed happroved)
      | release =>
        dsimp only at hrest
        split at hrest
        · cases hrest
          refine ⟨r.actionId, ?_, ?_⟩
          · rw [recordOf?_removeRecord, if_pos hid, hown]
            exact Moves.released rfl hid.symm hleaseId happroved (.inl rfl)
          · intro id hne
            have hput : recordOf? (put stored (withoutLease r)) id = recordOf? stored id := by
              rw [recordOf?_put]
              exact if_neg hne
            rw [recordOf?_removeRecord, if_neg (by rw [← hid]; exact hne), hput]
            exact Tidied.kept _
        · cases hrest
          exact changes_of_put hown rfl
            (Moves.released rfl hid.symm hleaseId happroved (.inr rfl))
    · rw [heq]
      cases outcome with
      | consume => exact ran_failed hvalid _
      | release => exact ran_failed hvalid _

theorem consume_ran (action : ActionRequest) (authority : Option ApprovalAuthorityContext)
    (consumedAt : Instant) : Ran ⟨env, .consume action authority consumedAt⟩ stored
      (Turn.run sha256 ⟨env, .consume action authority consumedAt⟩ stored) := by
  unfold Turn.run consume
  dsimp only [Environment.made_now]
  cases approvalAuthorityFingerprint sha256 authority with
  | error e => exact ran_failed hvalid _
  | ok bound =>
    dsimp only
    rcases @unlessExpired_mutate_cases env _ hvalid _ "Action approval has expired." _ with
      ⟨state, hfn, hstate, e, heq⟩ | ⟨state, value, hfn, hstate, heq⟩ | ⟨e, heq⟩
    · rw [heq]
      refine ⟨hstate, ?_⟩
      obtain ⟨r, hr, hfn⟩ := bind_eq_ok.1 hfn
      obtain ⟨x, hx, hfn⟩ := bind_eq_ok.1 hfn
      obtain ⟨hfind, hid, hfor⟩ := requireApproved_eq_ok hr
      obtain ⟨rfl, hidle⟩ := requireIdle_eq_ok (hvalid.valid r (recordOf?_mem hfind).1) hx
      split at hfn
      · next hpassed =>
        cases hfn
        rw [← hid]
        exact changes_of_remove (recordOf?_own hvalid hfind) (Moves.tidied (Tidied.dropped
          (.inr (.inr ⟨(approvedFor_eq_true.1 hfor).1, hidle, hpassed⟩))))
      · cases hfn
    · rw [heq]
      refine ⟨hstate, ?_⟩
      obtain ⟨r, hr, hfn⟩ := bind_eq_ok.1 hfn
      obtain ⟨x, hx, hfn⟩ := bind_eq_ok.1 hfn
      obtain ⟨hfind, hid, hfor⟩ := requireApproved_eq_ok hr
      obtain ⟨rfl, hidle⟩ := requireIdle_eq_ok (hvalid.valid r (recordOf?_mem hfind).1) hx
      split at hfn
      · cases hfn
      · cases hfn
        dsimp only [eventOf]
        rw [hfind]
        exact changes_of_put (recordOf?_own hvalid hfind) rfl
          (Moves.consumed (approvedFor_eq_true.1 hfor).1)
    · rw [heq]
      exact ran_failed hvalid _

theorem Turn.run_ran (turn : Turn) : Ran turn stored (turn.run sha256 stored) := by
  obtain ⟨env, call⟩ := turn
  cases call with
  | register action authority requestId => exact register_ran hvalid action authority requestId
  | list => exact list_ran hvalid
  | approve actionId approvalRequestId => exact approve_ran hvalid actionId approvalRequestId
  | deny actionId approvalRequestId => exact deny_ran hvalid actionId approvalRequestId
  | isApproved action authority => exact isApproved_ran hvalid action authority
  | claim action authority leaseId => exact claim_ran hvalid action authority leaseId
  | settle action executionLeaseId outcome authority =>
    exact settle_ran hvalid action executionLeaseId outcome authority
  | consume action authority consumedAt =>
    exact consume_ran hvalid action authority consumedAt

end

end OperatorRuntime.Approval
