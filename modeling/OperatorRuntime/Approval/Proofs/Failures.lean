/-
What a failed decision leaves behind. A denial that fails removes at most
a record that is over. A failed approval removes whatever record is past
its pending window, in any status (`approve_removes`): the window is
checked before the status, where `deny` and pruning check the status
first. So an approval that is executing can be lost with its lease. And a
decision whose write throws after its rename has been taken, though its
caller is told of a failure (`failsClean_disk`).
-/
import OperatorRuntime.Approval.Proofs.ApprovalRuns

namespace OperatorRuntime.Approval

open Lib

-- ===== statements

/-- The store after a call, at any clock readings and write outcomes. -/
def turnOf (sha256 : Sha256) (stored : State) (turn : Turn) : Option State :=
  some (turn.run sha256 stored).1

/-- The record is expired itself: pending past its window, or an approval
that is over and not executing. -/
def Over (r : ApprovalRecord) (now : Instant) : Prop :=
  (r.status = .pending ∧ r.pendingExpiresAt.val ≤ now.val)
    ∨ (r.status = .approved ∧ passed r.approvalExpiresAt now ∧ activeExecutionLease r now = false)

/-- The store as it was, or without one expired record. -/
def CleanFile (stored : State) (now : Instant) (state : State) : Prop :=
  state = stored ∨ ∃ r ∈ stored, Over r now ∧ state = stored.filter fun x => x ≠ r

/-- A call that throws leaves the store, or removes one expired record. -/
def FailsClean {α : Type} (stored : State) (now : Instant)
    (outcome : State × Result α) : Prop :=
  ∀ e, outcome.2 = .error e → CleanFile stored now outcome.1

/-- A request that the call names is past its pending window only if its
record is expired. -/
def WindowRight (env : Environment) (stored : State) (actionId approvalRequestId : String) : Prop :=
  env.written = true → ∀ r ∈ stored,
    r.actionId = actionId → r.approvalRequestId.val = approvalRequestId →
    r.pendingExpiresAt.val ≤ env.now.val → Over r env.now

/-- The request can be approved at that time. -/
structure Approvable (r : ApprovalRecord) (now : Instant) : Prop where
  pending : r.status = .pending
  created : r.createdAt.val ≤ now.val
  window : now.val < r.pendingExpiresAt.val
  expires : now.val + approvalTtlMs ≤ 8640000000000000

/-- The request can be denied at that time. -/
def Deniable (r : ApprovalRecord) (now : Instant) : Prop :=
  (r.status = .pending ∧ now.val < r.pendingExpiresAt.val)
    ∨ (r.status = .approved ∧ ¬ passed r.approvalExpiresAt now
        ∧ activeExecutionLease r now = false)

/-- A write that throws after its rename does not carry a decision on the
request that the call names. -/
def NoneDecided (decidable : ApprovalRecord → Instant → Prop) (env : Environment) (stored : State)
    (actionId approvalRequestId : String) : Prop :=
  env.disk = .unconfirmed → ∀ r ∈ stored,
    r.actionId = actionId → r.approvalRequestId.val = approvalRequestId → ¬ decidable r env.now

-- ===== write outcomes

theorem CleanFile.fails {α : Type} {stored state : State} {now : Instant}
    (h : CleanFile stored now state) (answer : Result α) :
    FailsClean stored now (state, answer) :=
  fun _ _ => h

/-- A write that throws after its rename leaves the file of the answered
call, and this file is then what the failed call is measured by. -/
theorem failsClean_disk {α : Type} {message : String} (env : Environment) (stored : State)
    (fn : State → Result (State × Option α)) :
    FailsClean stored env.now (unlessExpired message (mutate env.disk stored fn))
    ↔ FailsClean stored env.now (unlessExpired message (mutate env.made.disk stored fn))
      ∧ (env.disk = .unconfirmed →
        CleanFile stored env.now (mutate env.made.disk stored fn).1) := by
  by_cases hdisk : env.disk = .unconfirmed
  · obtain ⟨e, heq⟩ := mutate_unconfirmed hdisk stored fn
    rw [heq]
    constructor
    · intro h
      have hclean : CleanFile stored env.now (mutate env.made.disk stored fn).1 := h e rfl
      exact ⟨hclean.fails _, fun _ => hclean⟩
    · rintro ⟨-, h⟩
      exact (h hdisk).fails _
  · rw [made_of_confirmed hdisk]
    exact ⟨fun h => ⟨h, fun hsame => absurd hsame hdisk⟩, And.left⟩

theorem written_of_unconfirmed {env : Environment} (h : env.disk = .unconfirmed) :
    env.written = true := by
  rw [Environment.written, h]
  rfl

theorem not_clean_put {stored : State} {r y : ApprovalRecord} {now : Instant}
    (hr : recordOf? stored y.actionId = some r) (hne : y ≠ r) :
    ¬ CleanFile stored now (put stored y) := by
  rintro (hsame | ⟨x, hx, -, hsame⟩)
  · have hput := recordOf?_put stored y y.actionId
    rw [hsame, if_pos rfl, hr] at hput
    exact hne (Option.some.inj hput).symm
  · have hlength : (put stored y).length = stored.length := List.length_map _
    have hfewer : (stored.filter fun z => z ≠ x).length < stored.length :=
      List.length_filter_lt_length_iff_exists.2 ⟨x, hx, by simp⟩
    rw [← hsame] at hfewer
    omega

-- ===== removal

section
variable {stored : State} (hvalid : ValidState stored)
include hvalid

variable {r : ApprovalRecord}

theorem eq_of_actionId {x : ApprovalRecord} (hr : r ∈ stored) (hx : x ∈ stored)
    (hid : x.actionId = r.actionId) : x = r := by
  have hfind := recordOf?_of_mem hvalid hx
  rw [hid, recordOf?_of_mem hvalid hr] at hfind
  exact (Option.some.inj hfind).symm

theorem removeRecord_eq_filter (hr : r ∈ stored) :
    removeRecord stored r.actionId = stored.filter fun x => x ≠ r := by
  unfold removeRecord
  apply List.filter_congr
  intro x hx
  have hiff : x.actionId ≠ r.actionId ↔ x ≠ r :=
    not_congr ⟨eq_of_actionId hvalid hr hx, fun h => by rw [h]⟩
  simp [hiff]

theorem ValidState.removeRecord (id : String) : ValidState (removeRecord stored id) := by
  have hsub : List.Sublist (Approval.removeRecord stored id) stored := by
    unfold Approval.removeRecord
    exact List.filter_sublist
  exact ⟨Nat.le_trans hsub.length_le hvalid.few, fun r hr => hvalid.valid r (hsub.subset hr),
    hvalid.actions.sublist (hsub.map _), hvalid.requests.sublist (hsub.map _)⟩

-- ===== approvals

variable {env : Environment} {actionId approvalRequestId : String}

omit hvalid in
theorem requireRecord_of_find {id : String} (h : recordOf? stored id = some r) :
    requireRecord stored id = .ok r := by
  unfold requireRecord
  rw [h]

theorem approve_removes (hwritten : env.written = true) (hr : r ∈ stored)
    (hover : r.pendingExpiresAt.val ≤ env.now.val) :
    approve env.made stored r.actionId r.approvalRequestId.val = (stored.filter fun x => x ≠ r,
          fail .approvalExpired "Approval request has expired.") := by
  have hrequire := requireRecord_of_find (recordOf?_of_mem hvalid hr)
  have hrequest : requireApprovalRequest r r.approvalRequestId.val = .ok () :=
    rejectIf_of_not (not_not.2 rfl)
  have hdisk : env.made.disk = .durable := by simp only [hwritten, if_true]
  unfold approve
  rw [hdisk, @mutate_eq_ok _ _ (removeRecord stored r.actionId) none _ hvalid
    (by simp [hrequire, hrequest, hover]) (ValidState.removeRecord hvalid _)]
  unfold unlessExpired
  rw [removeRecord_eq_filter hvalid hr]

omit hvalid in
theorem ValidRecord.approved (h : ValidRecord r) {now expiresAt : Instant}
    (hpending : r.status = .pending) (hcreated : r.createdAt.val ≤ now.val)
    (hexpires : now.val < expiresAt.val) : ValidRecord (approvedOf r now expiresAt) := by
  obtain ⟨_, hmeta, -⟩ := bind_eq_ok.1 h.status
  have hmeta' := corruptIf_eq_ok.1 hmeta
  simp only [hpending, true_and, not_or, Bool.not_eq_true, Option.isSome_eq_false_iff,
    Option.isNone_iff_eq_none] at hmeta'
  obtain ⟨-, -, hconsumed, hdenied, hlease⟩ := hmeta'
  have hleaseEnd : r.executionLeaseExpiresAt = none := by
    have hsame := h.lease
    rw [hlease] at hsame
    simpa using hsame.symm
  refine ⟨h.actionId, h.capability, h.target, h.pending, h.lease, ?_, ?_⟩
  · simp [checkStatus, approvedOf, corruptIf, hconsumed, hdenied, rejectIf]
  · refine bind_eq_ok.2 ⟨(), corruptIf_eq_ok.2 ?_, ?_⟩
    · rintro ⟨a, ha, hlt⟩
      cases ha
      exact absurd hlt (Int.not_lt.2 hcreated)
    refine bind_eq_ok.2 ⟨(), corruptIf_eq_ok.2 ?_, ?_⟩
    · rintro ⟨e, he, hle⟩
      cases he
      have hends := hle now rfl
      omega
    refine bind_eq_ok.2 ⟨(), corruptIf_eq_ok.2 ?_, corruptIf_eq_ok.2 ?_⟩
    · rintro ⟨c, hc, -⟩
      cases hconsumed.symm.trans hc
    · rintro ⟨e, he, -⟩
      cases hleaseEnd.symm.trans he

/-- A request that can be approved is approved. -/
theorem approve_accepts (hwritten : env.written = true) (hr : r ∈ stored)
    (happrovable : Approvable r env.now) :
    ∃ expiresAt, approve env.made stored r.actionId r.approvalRequestId.val
    = (put stored (approvedOf r env.now expiresAt), .ok (approvedOf r env.now expiresAt)) := by
  have hfind := recordOf?_of_mem hvalid hr
  have hrequire := requireRecord_of_find hfind
  have hrequest : requireApprovalRequest r r.approvalRequestId.val = .ok () :=
    rejectIf_of_not (not_not.2 rfl)
  have hdisk : env.made.disk = .durable := by simp only [hwritten, if_true]
  obtain ⟨hpending, hcreated, hwindow, hexpires⟩ := happrovable
  obtain ⟨expiresAt, hlater⟩ : ∃ t, env.now.later approvalTtlMs = .ok t := by
    refine ⟨⟨env.now.val + approvalTtlMs, ?_⟩, ?_⟩
    · have hrange := env.now.property
      omega
    · unfold Instant.later
      rw [dif_pos]
  have hends := later_eq_ok hlater
  rw [approvalTtlMs] at hends
  have hrecord := (hvalid.valid r hr).approved hpending hcreated (by omega : _ < expiresAt.val)
  refine ⟨expiresAt, ?_⟩
  unfold approve
  rw [hdisk, @mutate_eq_ok _ _ (put stored (approvedOf r env.now expiresAt))
    (some (approvedOf r env.now expiresAt)) _ hvalid ?_ (hvalid.put hfind rfl rfl hrecord)]
  · rfl
  · rw [hrequire, ok_bind, hrequest, ok_bind, if_neg (Int.not_le.2 hwindow),
      rejectIf_of_not (not_not.2 hpending), ok_bind, hlater]
    rfl

theorem unlessExpired_mutate_unwritten {α : Type} (message : String)
    (fn : State → Result (State × Option α)) (hwritten : env.written = false) :
    ∃ e, unlessExpired message (mutate env.made.disk stored fn) = (stored, .error e) := by
  rcases mutate_cases env hvalid fn with ⟨_, _, -, -, htrue, -⟩ | ⟨e, heq⟩
  · rw [hwritten] at htrue
    cases htrue
  · exact ⟨e, by rw [heq]; rfl⟩

theorem approve_cases :
    (∃ r ∈ stored, r.actionId = actionId ∧ r.approvalRequestId.val = approvalRequestId
        ∧ env.written = true ∧ r.pendingExpiresAt.val ≤ env.now.val)
      ∨ (∃ e, approve env.made stored actionId approvalRequestId = (stored, .error e))
      ∨ ∃ r ∈ stored, r.actionId = actionId ∧ r.approvalRequestId.val = approvalRequestId
          ∧ Approvable r env.now ∧ ∃ x, (approve env.made stored actionId approvalRequestId).2 = .ok x := by
  unfold approve
  by_cases hwritten : env.written = true
  · rcases @unlessExpired_mutate_cases env _ hvalid _ "Approval request has expired." _ with
      ⟨state, hfn, -, e, heq⟩ | ⟨state, value, hfn, hstate, heq⟩ | ⟨e, heq⟩
    · rw [heq]
      obtain ⟨r, hr, hfn⟩ := bind_eq_ok.1 hfn
      obtain ⟨_, hrequest, hfn⟩ := bind_eq_ok.1 hfn
      obtain ⟨hfind, hid⟩ := requireRecord_eq_ok hr
      split at hfn
      · next hover =>
        exact .inl ⟨r, (recordOf?_mem hfind).1, hid,
          (requireApprovalRequest_eq_ok hrequest).symm, hwritten, hover⟩
      · obtain ⟨_, -, hfn⟩ := bind_eq_ok.1 hfn
        obtain ⟨_, -, hfn⟩ := bind_eq_ok.1 hfn
        cases hfn
    · rw [heq]
      obtain ⟨r, hr, hrest⟩ := bind_eq_ok.1 hfn
      obtain ⟨_, hrequest, hrest⟩ := bind_eq_ok.1 hrest
      obtain ⟨hfind, hid⟩ := requireRecord_eq_ok hr
      split at hrest
      · cases hrest
      · next hwindow =>
        obtain ⟨_, hpending, hrest⟩ := bind_eq_ok.1 hrest
        obtain ⟨expiresAt, hexpires, hrest⟩ := bind_eq_ok.1 hrest
        refine .inr (.inr ⟨r, (recordOf?_mem hfind).1, hid,
          (requireApprovalRequest_eq_ok hrequest).symm, ⟨?_, ?_, ?_, ?_⟩, value, rfl⟩)
        · exact Decidable.not_not.1 (rejectIf_eq_ok.1 hpending)
        · cases hrest
          have hown := recordOf?_put_own (y := approvedOf r env.now expiresAt)
            (recordOf?_own hvalid hfind) rfl
          have hrecord := hstate.valid _ (recordOf?_mem hown).1
          obtain ⟨_, hordered, -⟩ := bind_eq_ok.1 hrecord.times
          by_contra hbefore
          exact corruptIf_eq_ok.1 hordered ⟨env.now, rfl, Int.not_le.1 hbefore⟩
        · exact Int.not_le.1 hwindow
        · rw [← later_eq_ok hexpires]
          exact expiresAt.property.2
    · exact .inr (.inl ⟨e, heq⟩)
  · refine .inr (.inl ?_)
    exact unlessExpired_mutate_unwritten hvalid _ _ (by simpa using hwritten)

omit hvalid in
theorem filter_ne_self (hr : r ∈ stored) : (stored.filter fun x => x ≠ r) ≠ stored := by
  intro hsame
  have hmem : r ∈ stored.filter fun x => x ≠ r := by rw [hsame]; exact hr
  simp at hmem

theorem approve_made_clean_iff :
    FailsClean stored env.now (approve env.made stored actionId approvalRequestId)
    ↔ WindowRight env stored actionId approvalRequestId := by
  constructor
  · rintro hclean hwritten r hr rfl rfl hover
    rw [approve_removes hvalid hwritten hr hover] at hclean
    rcases hclean _ rfl with hsame | ⟨x, -, hxover, hsame⟩
    · exact absurd hsame (filter_ne_self hr)
    · by_cases hrx : r = x
      · rw [hrx]
        exact hxover
      · have hmem : r ∈ stored.filter fun y => y ≠ x := by simp [hr, hrx]
        rw [← hsame] at hmem
        simp at hmem
  · intro hright e he
    rcases @approve_cases _ hvalid env actionId approvalRequestId with
      ⟨r, hr, rfl, rfl, hwritten, hover⟩ | ⟨e', heq⟩ | ⟨-, -, -, -, -, x, heq⟩
    · rw [approve_removes hvalid hwritten hr hover]
      exact .inr ⟨r, hr, hright hwritten r hr rfl rfl hover, rfl⟩
    · rw [heq]
      exact .inl rfl
    · rw [heq] at he
      cases he

/-- The file of an approval, whatever its caller is told. -/
theorem approve_file_clean_iff (hwritten : env.written = true)
    (hright : WindowRight env stored actionId approvalRequestId) :
    CleanFile stored env.now (approve env.made stored actionId approvalRequestId).1
    ↔ ∀ r ∈ stored, r.actionId = actionId → r.approvalRequestId.val = approvalRequestId →
        ¬ Approvable r env.now := by
  constructor
  · rintro hclean r hr rfl rfl happrovable
    obtain ⟨expiresAt, heq⟩ := approve_accepts hvalid hwritten hr happrovable
    rw [heq] at hclean
    refine not_clean_put (y := approvedOf r env.now expiresAt) (r := r)
      (recordOf?_of_mem hvalid hr) ?_ hclean
    intro hsame
    have hstatus := congrArg ApprovalRecord.status hsame
    rw [happrovable.pending] at hstatus
    cases hstatus
  · intro hnone
    rcases @approve_cases _ hvalid env actionId approvalRequestId with
      ⟨r, hr, rfl, rfl, hwritten, hover⟩ | ⟨e, heq⟩ | ⟨r, hr, hid, hrequest, happrovable, -⟩
    · rw [approve_removes hvalid hwritten hr hover]
      exact .inr ⟨r, hr, hright hwritten r hr rfl rfl hover, rfl⟩
    · rw [heq]
      exact .inl rfl
    · exact absurd happrovable (hnone r hr hid hrequest)

theorem approve_clean_iff :
    FailsClean stored env.now (approve env stored actionId approvalRequestId)
    ↔ WindowRight env stored actionId approvalRequestId
      ∧ NoneDecided Approvable env stored actionId approvalRequestId := by
  refine (failsClean_disk env stored _).trans ⟨?_, ?_⟩
  · rintro ⟨hmade, hfile⟩
    have hright := (approve_made_clean_iff hvalid).1 hmade
    refine ⟨hright, fun hdisk => ?_⟩
    exact (approve_file_clean_iff hvalid (written_of_unconfirmed hdisk) hright).1 (hfile hdisk)
  · rintro ⟨hright, hnone⟩
    refine ⟨(approve_made_clean_iff hvalid).2 hright, fun hdisk => ?_⟩
    exact (approve_file_clean_iff hvalid (written_of_unconfirmed hdisk) hright).2 (hnone hdisk)

theorem approve_again (hr : r ∈ stored) (happroved : r.status = .approved) :
    (∃ e, (approve env stored r.actionId approvalRequestId).2 = .error e)
    ∧ ((approve env stored r.actionId approvalRequestId).1 = stored
        ↔ (env.written = true → r.approvalRequestId.val = approvalRequestId →
            env.now.val < r.pendingExpiresAt.val)) := by
  have hmade : (∃ e, (approve env.made stored r.actionId approvalRequestId).2 = .error e)
      ∧ ((approve env.made stored r.actionId approvalRequestId).1 = stored
          ↔ (env.written = true → r.approvalRequestId.val = approvalRequestId →
              env.now.val < r.pendingExpiresAt.val)) := by
    by_cases hover : env.written = true ∧ r.approvalRequestId.val = approvalRequestId
        ∧ r.pendingExpiresAt.val ≤ env.now.val
    · obtain ⟨hwritten, rfl, hle⟩ := hover
      rw [approve_removes hvalid hwritten hr hle]
      refine ⟨⟨_, rfl⟩, iff_of_false (filter_ne_self hr) ?_⟩
      intro h
      have hlt := h hwritten rfl
      omega
    · rcases @approve_cases _ hvalid env r.actionId approvalRequestId with
        ⟨x, hx, hid, hrequest, hwritten, hle⟩ | ⟨e, heq⟩ | ⟨x, hx, hid, -, happrovable, -⟩
      · rw [eq_of_actionId hvalid hr hx hid] at hrequest hle
        exact absurd ⟨hwritten, hrequest, hle⟩ hover
      · rw [heq]
        refine ⟨⟨e, rfl⟩, iff_of_true rfl ?_⟩
        intro hwritten hrequest
        exact Int.not_le.1 fun hle => hover ⟨hwritten, hrequest, hle⟩
      · have hpending := happrovable.pending
        rw [eq_of_actionId hvalid hr hx hid, happroved] at hpending
        cases hpending
  by_cases hdisk : env.disk = .unconfirmed
  · obtain ⟨e, heq⟩ := mutate_unconfirmed hdisk stored _
    rw [approve, heq]
    exact ⟨⟨e, rfl⟩, hmade.2⟩
  · rw [made_of_confirmed hdisk] at hmade
    exact hmade

-- ===== denials

omit hvalid in
theorem ValidRecord.denied (h : ValidRecord r) {now : Instant}
    (hlive : r.status = .pending ∨ r.status = .approved) :
    ValidRecord (deniedOf (Approval.withoutLease r) now) := by
  obtain ⟨_, hpending, hrest⟩ := bind_eq_ok.1 h.status
  obtain ⟨_, happroved, -⟩ := bind_eq_ok.1 hrest
  have hconsumed : r.consumedAt = none := by
    rcases hlive with hstatus | hstatus
    · have hnone := corruptIf_eq_ok.1 hpending
      simp only [hstatus, true_and, not_or] at hnone
      simpa using hnone.2.2.1
    · have hnone := corruptIf_eq_ok.1 happroved
      simp only [hstatus, true_and, not_or] at hnone
      simpa using hnone.2.2.1
  obtain ⟨_, hordered, hrest⟩ := bind_eq_ok.1 h.times
  obtain ⟨_, hends, hrest⟩ := bind_eq_ok.1 hrest
  obtain ⟨_, hused, -⟩ := bind_eq_ok.1 hrest
  refine ⟨h.actionId, h.capability, h.target, h.pending, rfl, ?_, ?_⟩
  · simp [checkStatus, deniedOf, Approval.withoutLease, corruptIf, hconsumed, rejectIf]
  · refine bind_eq_ok.2 ⟨(), hordered, bind_eq_ok.2 ⟨(), hends, bind_eq_ok.2 ⟨(), hused, ?_⟩⟩⟩
    refine corruptIf_eq_ok.2 ?_
    rintro ⟨e, he, -⟩
    cases he

omit hvalid in
theorem requireIdle_of_deniable {now : Instant} (h : ValidRecord r) (hdeniable : Deniable r now)
    (message : String) : requireIdle r now message = .ok (withoutLease r) := by
  cases hx : requireIdle r now message with
  | ok x => rw [(requireIdle_eq_ok h hx).1]
  | error e =>
    unfold requireIdle at hx
    rcases hdeniable with ⟨hstatus, -⟩ | ⟨hstatus, -, hidle⟩
    · rw [if_neg (by rw [hstatus]; decide)] at hx
      cases hx
    · rw [if_pos hstatus] at hx
      dsimp only at hx
      rw [activeExecutionLease_clear, hidle] at hx
      cases hx

/-- A request that can be denied is denied. -/
theorem deny_accepts (hwritten : env.written = true) (hr : r ∈ stored)
    (hdeniable : Deniable r env.now) : ∃ x, deny env.made stored r.actionId r.approvalRequestId.val
    = (put stored (deniedOf (withoutLease r) env.now), .ok x) := by
  have hfind := recordOf?_of_mem hvalid hr
  have hrequire := requireRecord_of_find hfind
  have hrequest : requireApprovalRequest r r.approvalRequestId.val = .ok () :=
    rejectIf_of_not (not_not.2 rfl)
  have hdisk : env.made.disk = .durable := by simp only [hwritten, if_true]
  have hidle := requireIdle_of_deniable (hvalid.valid r hr) hdeniable
    "Approved action is already executing and cannot be denied mid-dispatch."
  have hlive : r.status = .pending ∨ r.status = .approved := hdeniable.imp And.left And.left
  have hopen : ¬ (((withoutLease r).status = .pending
        ∧ (withoutLease r).pendingExpiresAt.val ≤ env.made.now.val)
      ∨ ((withoutLease r).status = .approved
        ∧ passed (withoutLease r).approvalExpiresAt env.made.now)) := by
    change ¬ ((r.status = .pending ∧ r.pendingExpiresAt.val ≤ env.now.val)
      ∨ (r.status = .approved ∧ passed r.approvalExpiresAt env.now))
    rcases hdeniable with ⟨hstatus, hlt⟩ | ⟨hstatus, hnot, -⟩
    · simp [hstatus, hlt]
    · simp [hstatus, hnot]
  refine ⟨deniedOf (withoutLease r) env.now, ?_⟩
  unfold deny
  rw [hdisk, @mutate_eq_ok _ _ (put stored (deniedOf (withoutLease r) env.now))
    (some (deniedOf (withoutLease r) env.now)) _ hvalid ?_
    (hvalid.put hfind rfl rfl ((hvalid.valid r hr).denied hlive))]
  · rfl
  · rw [hrequire, ok_bind, hrequest, ok_bind, hidle, ok_bind, if_neg hopen,
      rejectIf_of_not ?_, ok_bind]
    rintro ⟨hpending, happroved⟩
    exact hlive.elim hpending happroved

theorem deny_cases : CleanFile stored env.now (deny env.made stored actionId approvalRequestId).1
    ∨ ∃ r ∈ stored, r.actionId = actionId ∧ r.approvalRequestId.val = approvalRequestId
        ∧ Deniable r env.now ∧ ∃ x, (deny env.made stored actionId approvalRequestId).2 = .ok x := by
  unfold deny
  rcases @unlessExpired_mutate_cases env _ hvalid _ "Approval request has expired." _ with
    ⟨state, hfn, -, _, heq⟩ | ⟨state, value, hfn, -, heq⟩ | ⟨_, heq⟩
  · rw [heq]
    obtain ⟨r, hr, hfn⟩ := bind_eq_ok.1 hfn
    obtain ⟨_, -, hfn⟩ := bind_eq_ok.1 hfn
    obtain ⟨x, hx, hfn⟩ := bind_eq_ok.1 hfn
    obtain ⟨hfind, rfl⟩ := requireRecord_eq_ok hr
    have hmem := (recordOf?_mem hfind).1
    obtain ⟨rfl, hidle⟩ := requireIdle_eq_ok (hvalid.valid r hmem) hx
    split at hfn
    · next hover =>
      cases hfn
      refine .inl (.inr ⟨r, hmem, ?_, removeRecord_eq_filter hvalid hmem⟩)
      rcases hover with hpending | ⟨happroved, hpassed⟩
      · exact .inl hpending
      · exact .inr ⟨happroved, hpassed, hidle⟩
    · obtain ⟨_, -, hfn⟩ := bind_eq_ok.1 hfn
      cases hfn
  · rw [heq]
    obtain ⟨r, hr, hrest⟩ := bind_eq_ok.1 hfn
    obtain ⟨_, hrequest, hrest⟩ := bind_eq_ok.1 hrest
    obtain ⟨x, hx, hrest⟩ := bind_eq_ok.1 hrest
    obtain ⟨hfind, hid⟩ := requireRecord_eq_ok hr
    have hmem := (recordOf?_mem hfind).1
    obtain ⟨rfl, hidle⟩ := requireIdle_eq_ok (hvalid.valid r hmem) hx
    split at hrest
    · cases hrest
    · next hopen =>
      obtain ⟨_, hlive, -⟩ := bind_eq_ok.1 hrest
      refine .inr ⟨r, hmem, hid, (requireApprovalRequest_eq_ok hrequest).symm, ?_, value, rfl⟩
      obtain ⟨hwindow, hnotOver⟩ := not_or.1 hopen
      by_cases hpending : r.status = .pending
      · exact .inl ⟨hpending, Int.not_le.1 fun hle => hwindow ⟨hpending, hle⟩⟩
      · have happroved : r.status = .approved :=
          Decidable.not_not.1 fun hne => rejectIf_eq_ok.1 hlive ⟨hpending, hne⟩
        exact .inr ⟨happroved, fun hpassed => hnotOver ⟨happroved, hpassed⟩, hidle⟩
  · rw [heq]
    exact .inl (.inl rfl)

theorem deny_clean_iff : FailsClean stored env.now (deny env stored actionId approvalRequestId)
    ↔ NoneDecided Deniable env stored actionId approvalRequestId := by
  have hcases := @deny_cases _ hvalid env actionId approvalRequestId
  refine (failsClean_disk env stored _).trans ⟨?_, ?_⟩
  · rintro ⟨-, hfile⟩ hdisk r hr rfl rfl hdeniable
    have hclean : CleanFile stored env.now (deny env.made stored _ _).1 := hfile hdisk
    obtain ⟨x, heq⟩ := deny_accepts hvalid (written_of_unconfirmed hdisk) hr hdeniable
    rw [heq] at hclean
    refine not_clean_put (y := deniedOf (withoutLease r) env.now) (r := r)
      (recordOf?_of_mem hvalid hr) ?_ hclean
    intro hsame
    have hstatus := congrArg ApprovalRecord.status hsame
    rcases hdeniable with ⟨hpending, -⟩ | ⟨happroved, -⟩
    · rw [hpending] at hstatus
      cases hstatus
    · rw [happroved] at hstatus
      cases hstatus
  · intro hnone
    constructor
    · intro e he
      rcases hcases with hclean | ⟨-, -, -, -, -, x, hok⟩
      · exact hclean
      · cases he.symm.trans hok
    · intro hdisk
      rcases hcases with hclean | ⟨r, hr, hid, hrequest, hdeniable, -⟩
      · exact hclean
      · exact absurd hdeniable (hnone hdisk r hr hid hrequest)

end

-- ===== runs

theorem validState_of_run {sha256 : Sha256} {turns : List Turn} {stored : State}
    (h : Run (stepsOf (turnOf sha256)) [] turns stored) : ValidState stored := by
  refine h.invariant (Inv.start ⟨0, by decide⟩).valid ?_
  intro s t turn hs hstep
  obtain rfl := Option.some.inj hstep
  exact (Turn.run_ran hs turn).1

/-- At the end of every run, at any time and for any arguments: a denial
that throws removes at most an expired record exactly if no write that
throws after its rename carries a denial; an approval that throws does so
exactly if, besides that, the request it names is not past its pending
window or is expired; and a repeated approval leaves an approved record,
its lease and its settlement exactly before the end of the pending
window. -/
theorem failed_decisions_clean (sha256 : Sha256) (turns : List Turn) (stored : State)
    (h : Run (stepsOf (turnOf sha256)) [] turns stored) (env : Environment)
    (actionId approvalRequestId : String) :
    (FailsClean stored env.now (deny env stored actionId approvalRequestId)
        ↔ NoneDecided Deniable env stored actionId approvalRequestId)
    ∧ (FailsClean stored env.now (approve env stored actionId approvalRequestId)
        ↔ WindowRight env stored actionId approvalRequestId
          ∧ NoneDecided Approvable env stored actionId approvalRequestId)
    ∧ ∀ r ∈ stored, r.actionId = actionId → r.status = .approved →
        activeExecutionLease r env.now = true →
        (∃ e, (approve env stored actionId approvalRequestId).2 = .error e)
        ∧ ((approve env stored actionId approvalRequestId).1 = stored
            ↔ (env.written = true → r.approvalRequestId.val = approvalRequestId →
                env.now.val < r.pendingExpiresAt.val)) := by
  have hvalid := validState_of_run h
  refine ⟨deny_clean_iff hvalid, approve_clean_iff hvalid, ?_⟩
  rintro r hr rfl happroved -
  exact approve_again hvalid hr happroved

-- ===== samples

section
variable (sha256 : Sha256)

section
local instance neZero_day : @NeZero Nat Zero.ofOfNat0 86400000 := ⟨by decide⟩

/-- The approval of the samples, claimed a second before it is over. -/
def lateLeased (hash authorityHash : Hex64) : ApprovalRecord :=
  leasedOf (sampleApproved hash authorityHash) leaseUuid (instant 719000)

def lateTurns : List Turn :=
  [] ++ [⟨atMs 0, .register sampleAction none requestUuid⟩]
    ++ [⟨atMs 0, .approve "a" requestUuid.val⟩]
    ++ [⟨atMs 599000, .claim sampleAction none leaseUuid⟩]

end

theorem lateLeased_valid (hash authorityHash : Hex64) :
    ValidState [lateLeased hash authorityHash] :=
  @validState_of_hashes hash authorityHash (lateLeased zeroHash zeroHash) (by decide)

theorem late_claim_sample : claim sha256 (atMs 599000)
      [sampleApproved (actionHash sha256 sampleAction) (localHash sha256)] sampleAction none
      leaseUuid
    = ([lateLeased (actionHash sha256 sampleAction) (localHash sha256)], .ok (some leaseUuid)) :=
  @claim_grants _ _ _ _ _ _ _ (sampleApproved _ (localHash sha256)) _ _
    (sampleApproved_valid _ _) (lateLeased_valid _ _) rfl rfl rfl
    (approvedFor_eq_true.2 ⟨rfl, rfl, rfl⟩) rfl (not_passed_sample _ _ (by decide)) rfl rfl

theorem run_late : Run (stepsOf (turnOf sha256)) [] lateTurns
    [lateLeased (actionHash sha256 sampleAction) (localHash sha256)] := by
  refine Run.snoc (Run.snoc (Run.snoc Run.nil
    (t := []) (u := [sampleRecord (actionHash sha256 sampleAction) (localHash sha256)]) ?_)
    (u := [sampleApproved (actionHash sha256 sampleAction) (localHash sha256)]) ?_) ?_
  · show some (register sha256 (atMs 0) [] sampleAction none requestUuid).1 = _
    rw [register_sample]
  · show some (approve (atMs 0) [sampleRecord _ _] "a" requestUuid.val).1 = _
    rw [approve_sample]
  · show some (claim sha256 (atMs 599000) [sampleApproved _ _] sampleAction none leaseUuid).1 = _
    rw [late_claim_sample]

theorem late_active (hash authorityHash : Hex64) :
    activeExecutionLease (lateLeased hash authorityHash) (instant 600000) = true := rfl

theorem lateConsumed_valid (hash authorityHash : Hex64) :
    ValidState [consumedOf (withoutLease (lateLeased hash authorityHash)) (instant 600000)] :=
  @validState_of_hashes hash authorityHash
    (consumedOf (withoutLease (lateLeased zeroHash zeroHash)) (instant 600000))
    (by decide)

theorem late_settle_sample : settle sha256 (atMs 600000)
      [lateLeased (actionHash sha256 sampleAction) (localHash sha256)] sampleAction
      leaseUuid.val .consume none
    = ([consumedOf (withoutLease (lateLeased (actionHash sha256 sampleAction)
        (localHash sha256))) (instant 600000)], .ok ()) := by
  refine mutate_eq_ok (lateLeased_valid _ _) ?_ (lateConsumed_valid _ _)
  refine bind_eq_ok.2 ⟨_, requireApproved_of_find rfl (approvedFor_eq_true.2 ⟨rfl, rfl, rfl⟩), ?_⟩
  refine bind_eq_ok.2 ⟨(), rejectIf_of_not ?_, rfl⟩
  rw [isUuid_val]
  simp [lateLeased, leasedOf]

end

/-- While the approval is executing: an approval again, within its pending
window, and a denial, both with a write that throws after its rename. -/
theorem failed_decisions_clean_late :
    FailsClean [lateLeased (actionHash sha256Utf8 sampleAction) (localHash sha256Utf8)]
        (instant 599999) (approve ⟨instant 599999, .unconfirmed⟩
          [lateLeased (actionHash sha256Utf8 sampleAction) (localHash sha256Utf8)]
          "a" requestUuid.val)
      ∧ FailsClean [lateLeased (actionHash sha256Utf8 sampleAction) (localHash sha256Utf8)]
        (instant 599999) (deny ⟨instant 599999, .unconfirmed⟩
          [lateLeased (actionHash sha256Utf8 sampleAction) (localHash sha256Utf8)]
          "a" requestUuid.val) := by
  have hclean := failed_decisions_clean sha256Utf8 lateTurns _ (run_late sha256Utf8)
    ⟨instant 599999, .unconfirmed⟩ "a" requestUuid.val
  refine ⟨hclean.2.1.2 ⟨?_, ?_⟩, hclean.1.2 ?_⟩
  · intro _ r hr _ _ hle
    rw [List.mem_singleton.1 hr] at hle
    exact absurd hle (by decide)
  · rintro - r hr - - happrovable
    have hpending := happrovable.pending
    rw [List.mem_singleton.1 hr] at hpending
    cases hpending
  · rintro - r hr - - (⟨hpending, -⟩ | ⟨-, -, hidle⟩)
    · rw [List.mem_singleton.1 hr] at hpending
      cases hpending
    · rw [List.mem_singleton.1 hr] at hidle
      cases hidle

/-- Registered and approved at 0, claimed at 599 s: a second approval at
600 s, which throws, removes the request under its live lease, so that the
holder cannot settle it. -/
theorem second_approval_removes_lease :
    ∃ stored r, Run (stepsOf (turnOf sha256Utf8)) [] lateTurns stored
    ∧ r ∈ stored ∧ r.status = .approved ∧ activeExecutionLease r (instant 600000) = true
    ∧ ¬ FailsClean stored (instant 600000) (approve (atMs 600000) stored "a" requestUuid.val)
    ∧ (approve (atMs 600000) stored "a" requestUuid.val).1 = []
    ∧ (settle sha256Utf8 (atMs 600000) stored sampleAction leaseUuid.val .consume none).2 = .ok ()
    ∧ (settle sha256Utf8 (atMs 600000) [] sampleAction leaseUuid.val .consume none).2
        = fail .approvalNotFound "Approval request was not found." := by
  generalize sha256Utf8 = sha256
  have hvalid := lateLeased_valid (actionHash sha256 sampleAction) (localHash sha256)
  have hremoves := @approve_removes _ hvalid
    (lateLeased (actionHash sha256 sampleAction) (localHash sha256)) (atMs 600000) rfl
    (List.mem_singleton.2 rfl) (Int.le_refl 600000)
  have hnone : ([lateLeased (actionHash sha256 sampleAction) (localHash sha256)].filter fun x =>
      x ≠ lateLeased (actionHash sha256 sampleAction) (localHash sha256)) = [] := by
    simp
  rw [hnone] at hremoves
  refine ⟨_, lateLeased (actionHash sha256 sampleAction) (localHash sha256), run_late sha256,
    List.mem_singleton.2 rfl, rfl, late_active _ _, ?_, congrArg Prod.fst hremoves,
    congrArg Prod.snd (late_settle_sample sha256),
    congrArg Prod.snd (mutate_eq_error (Inv.start (instant 0)).valid rfl)⟩
  · intro hclean
    have heq : approve (atMs 600000)
        [lateLeased (actionHash sha256 sampleAction) (localHash sha256)] "a" requestUuid.val
        = ([], fail .approvalExpired "Approval request has expired.") := hremoves
    rw [heq] at hclean
    rcases hclean _ rfl with hsame | ⟨r, hr, hover, -⟩
    · cases hsame
    · rw [List.mem_singleton.1 hr] at hover
      rcases hover with ⟨hpending, -⟩ | ⟨-, -, hidle⟩
      · cases hpending
      · cases hidle

end OperatorRuntime.Approval
