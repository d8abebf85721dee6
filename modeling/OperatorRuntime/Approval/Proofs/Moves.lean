/-
The file of approvals as a map from action ids to records. A validated
file has one record for an action and one for a request
(`validateState_eq_ok`), so what an operation does to the list is told by
what it does to the record of each action: pruning keeps, clears or drops
it on its own (`recordOf?_prune`), and every other write concerns one
action (`recordOf?_put`, `recordOf?_removeRecord`, `recordOf?_append`).
-/
import OperatorRuntime.Approval.Store
import OperatorRuntime.Identifiers
import OperatorRuntime.Lib.Lookup

namespace OperatorRuntime.Approval

open Lib

-- ===== identifiers

theorem isUuid_val (id : Uuid) : isUuid id.val = true := by
  unfold isUuid
  rw [String.toList_map, uuid_toLower]
  exact id.property

-- ===== validation

/-- The checks on a record alone. -/
structure ValidRecord (r : ApprovalRecord) : Prop where
  actionId : checkStoredText r.actionId 256 "action ID" = .ok ()
  capability : checkStoredText r.capability 128 "capability" = .ok ()
  target : (r.target.toList.forM fun target => checkStoredText target 4096 "target") = .ok ()
  pending : r.createdAt.val < r.pendingExpiresAt.val
  lease : r.executionLeaseId.isSome = r.executionLeaseExpiresAt.isSome
  status : checkStatus r = .ok ()
  times : checkTimes r = .ok ()

variable {u : Unit}

theorem corruptIf_eq_ok {bad : Prop} [Decidable bad] {message : String} :
    corruptIf bad message = .ok u ↔ ¬ bad := by
  unfold corruptIf
  simp

variable {r : ApprovalRecord}

/-- What the check of one record accepts. -/
theorem checkRecord_eq_ok {actionIds : List String} {requestIds : List Uuid} :
    checkRecord actionIds requestIds r = .ok u
    ↔ r.actionId ∉ actionIds ∧ r.approvalRequestId ∉ requestIds ∧ ValidRecord r := by
  cases u
  constructor
  · intro h
    obtain ⟨⟨⟩, haction, h⟩ := bind_eq_ok.1 h
    obtain ⟨_, hnew, h⟩ := bind_eq_ok.1 h
    obtain ⟨_, hrequest, h⟩ := bind_eq_ok.1 h
    obtain ⟨⟨⟩, hcapability, h⟩ := bind_eq_ok.1 h
    obtain ⟨⟨⟩, htarget, h⟩ := bind_eq_ok.1 h
    obtain ⟨_, hpending, h⟩ := bind_eq_ok.1 h
    obtain ⟨_, hlease, h⟩ := bind_eq_ok.1 h
    obtain ⟨⟨⟩, hstatus, htimes⟩ := bind_eq_ok.1 h
    refine ⟨corruptIf_eq_ok.1 hnew, corruptIf_eq_ok.1 hrequest, haction, hcapability,
      htarget, ?_, ?_, hstatus, htimes⟩
    · have := corruptIf_eq_ok.1 hpending
      omega
    · exact Decidable.not_not.1 (corruptIf_eq_ok.1 hlease)
  · rintro ⟨hnew, hrequest, h⟩
    refine bind_eq_ok.2 ⟨(), h.actionId, ?_⟩
    refine bind_eq_ok.2 ⟨(), corruptIf_eq_ok.2 hnew, ?_⟩
    refine bind_eq_ok.2 ⟨(), corruptIf_eq_ok.2 hrequest, ?_⟩
    refine bind_eq_ok.2 ⟨(), h.capability, ?_⟩
    refine bind_eq_ok.2 ⟨(), h.target, ?_⟩
    refine bind_eq_ok.2 ⟨(), corruptIf_eq_ok.2 (by have := h.pending; omega), ?_⟩
    refine bind_eq_ok.2 ⟨(), corruptIf_eq_ok.2 (fun hne => hne h.lease), ?_⟩
    exact bind_eq_ok.2 ⟨(), h.status, h.times⟩

/-- What the check of a stored file accepts. -/
theorem checkRecords_eq_ok {actionIds : List String} {requestIds : List Uuid} {records : State} :
    checkRecords actionIds requestIds records = .ok u
    ↔ (∀ r ∈ records, ValidRecord r ∧ r.actionId ∉ actionIds ∧ r.approvalRequestId ∉ requestIds)
      ∧ (records.map (·.actionId)).Nodup ∧ (records.map (·.approvalRequestId)).Nodup := by
  induction records generalizing actionIds requestIds with
  | nil =>
    cases u
    simp [checkRecords]
  | cons r records ih =>
    rw [checkRecords, bind_eq_ok]
    constructor
    · rintro ⟨_, hfirst, hrest⟩
      obtain ⟨hid, hrequest, hvalid⟩ := checkRecord_eq_ok.1 hfirst
      obtain ⟨hall, hids, hrequests⟩ := ih.1 hrest
      refine ⟨?_, ?_, ?_⟩
      · intro x hx
        rcases List.mem_cons.1 hx with rfl | hx
        · exact ⟨hvalid, hid, hrequest⟩
        · obtain ⟨hx', hxid, hxrequest⟩ := hall x hx
          exact ⟨hx', fun h => hxid (List.mem_cons_of_mem _ h),
            fun h => hxrequest (List.mem_cons_of_mem _ h)⟩
      · rw [List.map_cons, List.nodup_cons]
        refine ⟨?_, hids⟩
        intro hmem
        obtain ⟨x, hx, hxid⟩ := List.mem_map.1 hmem
        exact (hall x hx).2.1 (hxid ▸ List.mem_cons_self ..)
      · rw [List.map_cons, List.nodup_cons]
        refine ⟨?_, hrequests⟩
        intro hmem
        obtain ⟨x, hx, hxid⟩ := List.mem_map.1 hmem
        exact (hall x hx).2.2 (hxid ▸ List.mem_cons_self ..)
    · rintro ⟨hall, hids, hrequests⟩
      rw [List.map_cons, List.nodup_cons] at hids hrequests
      obtain ⟨hvalid, hid, hrequest⟩ := hall r (List.mem_cons_self ..)
      refine ⟨(), checkRecord_eq_ok.2 ⟨hid, hrequest, hvalid⟩, ih.2 ⟨?_, hids.2, hrequests.2⟩⟩
      intro x hx
      obtain ⟨hx', hxid, hxrequest⟩ := hall x (List.mem_cons_of_mem _ hx)
      refine ⟨hx', ?_, ?_⟩
      · intro hmem
        rcases List.mem_cons.1 hmem with heq | hmem
        · exact hids.1 (heq ▸ List.mem_map_of_mem hx)
        · exact hxid hmem
      · intro hmem
        rcases List.mem_cons.1 hmem with heq | hmem
        · exact hrequests.1 (heq ▸ List.mem_map_of_mem hx)
        · exact hxrequest hmem

/-- A file that passes its checks. -/
structure ValidState (state : State) : Prop where
  few : state.length ≤ maxRecords
  valid : ∀ r ∈ state, ValidRecord r
  actions : (state.map (·.actionId)).Nodup
  requests : (state.map (·.approvalRequestId)).Nodup

theorem validateState_eq_ok {input state : State} :
    validateState input = .ok state ↔ state = input ∧ ValidState input := by
  unfold validateState
  constructor
  · intro h
    obtain ⟨_, hlen, h⟩ := bind_eq_ok.1 h
    obtain ⟨_, hrecords, h⟩ := bind_eq_ok.1 h
    obtain ⟨hall, hids, hrequests⟩ := checkRecords_eq_ok.1 hrecords
    exact ⟨(Except.ok.inj h).symm, Nat.not_lt.1 (corruptIf_eq_ok.1 hlen),
      fun r hr => (hall r hr).1, hids, hrequests⟩
  · rintro ⟨rfl, h⟩
    refine bind_eq_ok.2 ⟨(), corruptIf_eq_ok.2 (Nat.not_lt.2 h.few), ?_⟩
    refine bind_eq_ok.2 ⟨(), checkRecords_eq_ok.2 ⟨?_, h.actions, h.requests⟩, rfl⟩
    exact fun r hr => ⟨h.valid r hr, List.not_mem_nil, List.not_mem_nil⟩

variable {α : Type}

theorem accept_eq_ok {state : State} {u : Unit} :
    (validateState state).map (fun _ => ()) = .ok u ↔ ValidState state := by
  constructor
  · intro h
    cases hstate : validateState state with
    | error e =>
      rw [hstate] at h
      cases h
    | ok out => exact (validateState_eq_ok.1 hstate).2
  · intro h
    rw [validateState_eq_ok.2 ⟨rfl, h⟩]
    rfl

/-- An answered call has written what it made of the records. -/
theorem mutate_ok_cases {disk : Disk} {stored state : State} {value : α}
    {fn : State → Result (State × α)} (hvalid : ValidState stored)
    (h : mutate disk stored fn = (state, .ok value)) :
    fn stored = .ok (state, value) ∧ ValidState state := by
  unfold mutate at h
  rw [validateState_eq_ok.2 ⟨rfl, hvalid⟩, ok_bind] at h
  rcases replaceState_cases h with ⟨-, e, herror⟩ | ⟨state', value', hfn, haccept, rfl, hanswer⟩
  · cases herror
  · rcases hanswer with hok | ⟨e, herror⟩
    · cases hok
      exact ⟨hfn, accept_eq_ok.1 haccept⟩
    · cases herror

theorem mutate_eq_ok {stored state : State} {value : α}
    {fn : State → Result (State × α)} (hvalid : ValidState stored)
    (hfn : fn stored = .ok (state, value)) (hstate : ValidState state) :
    mutate .durable stored fn = (state, .ok value) := by
  unfold mutate
  rw [validateState_eq_ok.2 ⟨rfl, hvalid⟩, ok_bind, hfn]
  exact replaceState_ok (accept_eq_ok.2 hstate)

theorem mutate_eq_error {disk : Disk} {stored : State} {e : OperatorError}
    {fn : State → Result (State × α)} (hvalid : ValidState stored)
    (hfn : fn stored = .error e) : mutate disk stored fn = (stored, .error e) := by
  unfold mutate
  rw [validateState_eq_ok.2 ⟨rfl, hvalid⟩, ok_bind, hfn]
  rfl

theorem mutate_cases (env : Environment) {stored : State} (hvalid : ValidState stored)
    (fn : State → Result (State × α)) :
    (∃ state value, fn stored = .ok (state, value) ∧ ValidState state ∧ env.written = true
        ∧ mutate env.made.disk stored fn = (state, .ok value))
      ∨ ∃ e, mutate env.made.disk stored fn = (stored, .error e) := by
  cases hfn : fn stored with
  | error e => exact .inr ⟨e, mutate_eq_error hvalid hfn⟩
  | ok outcome =>
    obtain ⟨state, value⟩ := outcome
    unfold mutate
    rw [validateState_eq_ok.2 ⟨rfl, hvalid⟩, ok_bind, hfn]
    cases haccept : (validateState state).map fun _ => () with
    | error e => exact .inr ⟨e, replaceState_error haccept⟩
    | ok _ =>
      have hvalid' := accept_eq_ok.1 haccept
      cases hwritten : env.written with
      | true =>
        refine .inl ⟨state, value, rfl, hvalid', rfl, ?_⟩
        simp only [hwritten, if_true]
        exact replaceState_ok haccept
      | false =>
        refine .inr ⟨⟨.approvalStoreCorrupt, "Approval store is invalid.", false⟩, ?_⟩
        simp only [hwritten, replaceState, haccept]
        rfl

theorem Environment.made_now (env : Environment) : env.made.now = env.now := rfl

/-- A write that throws after its rename leaves the file of an answered
call. -/
theorem mutate_unconfirmed {env : Environment} (hdisk : env.disk = .unconfirmed) (stored : State)
    (fn : State → Result (State × α)) :
    ∃ e, mutate env.disk stored fn = ((mutate env.made.disk stored fn).1, .error e) := by
  unfold mutate
  rw [hdisk, show env.made.disk = .durable by simp [Environment.written, hdisk]]
  exact replaceState_unconfirmed ..

theorem made_of_confirmed {env : Environment} (h : env.disk ≠ .unconfirmed) : env.made = env := by
  obtain ⟨now, disk⟩ := env
  cases disk with
  | unconfirmed => exact absurd rfl h
  | lost | durable => rfl

-- ===== lookups

theorem recordOf?_eq_some {state : State} (hvalid : ValidState state) {id : String} :
    recordOf? state id = some r ↔ r ∈ state ∧ r.actionId = id :=
  find?_key_eq_some hvalid.actions

theorem recordOf?_mem {state : State} {id : String} (h : recordOf? state id = some r) :
    r ∈ state ∧ r.actionId = id := by
  refine ⟨List.mem_of_find?_eq_some h, ?_⟩
  simpa using List.find?_some h

theorem recordOf?_of_mem {state : State} (hvalid : ValidState state) (h : r ∈ state) :
    recordOf? state r.actionId = some r :=
  (recordOf?_eq_some hvalid).2 ⟨h, rfl⟩

theorem recordOf?_put (state : State) (r : ApprovalRecord) (id : String) :
    recordOf? (put state r) id = if id = r.actionId then (recordOf? state id).map fun _ => r
        else recordOf? state id := by
  unfold recordOf? put
  rw [List.find?_map]
  have hkey : ((fun x : ApprovalRecord => x.actionId == id) ∘
      fun x => if x.actionId = r.actionId then r else x) = fun x => x.actionId == id := by
    funext x
    by_cases hx : x.actionId = r.actionId
    · simp [hx]
    · simp [hx]
  rw [hkey]
  cases hfind : state.find? fun x => x.actionId == id with
  | none => simp
  | some x =>
    have hx : x.actionId = id := by simpa using List.find?_some hfind
    by_cases hid : id = r.actionId
    · simp [hx, hid]
    · simp [hx, hid]

theorem recordOf?_removeRecord (state : State) (actionId id : String) :
    recordOf? (removeRecord state actionId) id
    = if id = actionId then none else recordOf? state id := by
  have hfilter : removeRecord state actionId = state.filter fun r => r.actionId != actionId := by
    unfold removeRecord
    congr 1
    funext r
    by_cases hr : r.actionId = actionId
    · simp [hr]
    · simp [hr]
  unfold recordOf?
  rw [hfilter]
  exact find?_key_filter_ne

theorem recordOf?_append {state : State} (h : recordOf? state r.actionId = none) (id : String) :
    recordOf? (state ++ [r]) id = if id = r.actionId then some r else recordOf? state id :=
  find?_key_append (find?_key_eq_none.1 h)

theorem ValidState.put {state : State} (h : ValidState state) {y : ApprovalRecord}
    (hr : recordOf? state r.actionId = some r) (haction : y.actionId = r.actionId)
    (hrequest : y.approvalRequestId = r.approvalRequestId) (hy : ValidRecord y) :
    ValidState (put state y) := by
  have hsame : ∀ x ∈ state, x.actionId = y.actionId → x = r := by
    intro x hx hid
    have hfind := recordOf?_of_mem h hx
    rw [hid, haction, hr] at hfind
    exact (Option.some.inj hfind).symm
  have hactions : (Approval.put state y).map (·.actionId) = state.map (·.actionId) := by
    unfold Approval.put
    rw [List.map_map]
    refine List.map_congr_left ?_
    intro x _
    show (if x.actionId = y.actionId then y else x).actionId = x.actionId
    split
    · next hid => exact hid.symm
    · rfl
  have hrequests : (Approval.put state y).map (·.approvalRequestId)
      = state.map (·.approvalRequestId) := by
    unfold Approval.put
    rw [List.map_map]
    refine List.map_congr_left ?_
    intro x hx
    show (if x.actionId = y.actionId then y else x).approvalRequestId = x.approvalRequestId
    split
    · next hid => rw [hrequest, hsame x hx hid]
    · rfl
  refine ⟨?_, ?_, hactions ▸ h.actions, hrequests ▸ h.requests⟩
  · unfold Approval.put
    rw [List.length_map]
    exact h.few
  · intro z hz
    obtain ⟨x, hx, rfl⟩ := List.mem_map.1 hz
    split
    · exact hy
    · exact h.valid x hx

-- ===== pruning

theorem clearExpiredExecutionLease_actionId (r : ApprovalRecord) (now : Instant) :
    (clearExpiredExecutionLease r now).actionId = r.actionId := by
  unfold clearExpiredExecutionLease
  split
  · rfl
  · split <;> rfl

theorem pruneRecord_actionId {now : Instant} {x : ApprovalRecord}
    (h : pruneRecord now r = some x) : x.actionId = r.actionId := by
  unfold pruneRecord at h
  split at h
  · cases h
  split at h
  · cases h
  split at h
  · dsimp only at h
    split at h
    · cases h
      exact clearExpiredExecutionLease_actionId r now
    · split at h
      · cases h
      · cases h
        exact clearExpiredExecutionLease_actionId r now
  · cases h
    rfl

/-- Pruning treats each record by itself. -/
theorem recordOf?_prune {state : State} (hvalid : ValidState state) (now : Instant) (id : String) :
    recordOf? (prune state now) id = (recordOf? state id).bind (pruneRecord now) := by
  have hmem : ∀ x, (x ∈ prune state now ∧ x.actionId = id)
      ↔ ∃ r, recordOf? state id = some r ∧ pruneRecord now r = some x := by
    intro x
    constructor
    · rintro ⟨hx, hid⟩
      obtain ⟨r, hr, hprune⟩ := List.mem_filterMap.1 hx
      refine ⟨r, (recordOf?_eq_some hvalid).2 ⟨hr, ?_⟩, hprune⟩
      rw [← pruneRecord_actionId hprune, hid]
    · rintro ⟨r, hr, hprune⟩
      obtain ⟨hin, hid⟩ := recordOf?_mem hr
      exact ⟨List.mem_filterMap.2 ⟨r, hin, hprune⟩, (pruneRecord_actionId hprune).trans hid⟩
  cases hfind : recordOf? (prune state now) id with
  | some x =>
    obtain ⟨r, hr, hprune⟩ := (hmem x).1 (recordOf?_mem hfind)
    rw [hr, Option.bind_some, hprune]
  | none =>
    symm
    rw [Option.bind_eq_none_iff]
    intro r hr
    cases hprune : pruneRecord now r with
    | none => rfl
    | some x =>
      obtain ⟨hin, hid⟩ := (hmem x).2 ⟨r, hr, hprune⟩
      exact absurd hid (find?_key_eq_none.1 hfind x hin)

/-
What one call does to the record of each action. `Tidied` is what pruning
does to a record the call is not about, `Moves` what the call does to the
record of its own action, with the event its caller is told. `Turn.run_ran`
states that this is all: the invariants of the store are read off the
constructors.
-/

-- ===== leases

theorem withoutLease_eq_self (hid : r.executionLeaseId = none)
    (hexp : r.executionLeaseExpiresAt = none) : withoutLease r = r := by
  cases r
  simp only at hid hexp
  simp [withoutLease, hid, hexp]

variable {now : Instant}

theorem not_active_of_passed (h : passed r.executionLeaseExpiresAt now) :
    activeExecutionLease r now = false := by
  unfold activeExecutionLease
  cases hexp : r.executionLeaseExpiresAt with
  | none => simp
  | some e =>
    have hle : e.val ≤ now.val := h e hexp
    have hnot : ¬ now.val < e.val := by omega
    simp [hnot]

theorem clearExpiredExecutionLease_cases (r : ApprovalRecord) (now : Instant) :
    clearExpiredExecutionLease r now = r ∨ passed r.executionLeaseExpiresAt now
        ∧ clearExpiredExecutionLease r now = withoutLease r := by
  unfold clearExpiredExecutionLease
  split
  · exact .inl rfl
  split
  · next h => exact .inr ⟨h, rfl⟩
  · exact .inl rfl

theorem clearExpiredExecutionLease_withoutLease (r : ApprovalRecord) (now : Instant) :
    clearExpiredExecutionLease (withoutLease r) now = withoutLease r := by
  simp [clearExpiredExecutionLease, withoutLease]

theorem clearExpiredExecutionLease_of_idle
    (hlease : r.executionLeaseId.isSome = r.executionLeaseExpiresAt.isSome)
    (hidle : activeExecutionLease r now = false) :
    clearExpiredExecutionLease r now = withoutLease r := by
  unfold clearExpiredExecutionLease
  split
  · next h => exact (withoutLease_eq_self h.1 h.2).symm
  split
  · rfl
  · next hnone hpassed =>
    exfalso
    apply hpassed
    intro e he
    have hid : r.executionLeaseId.isSome = true := by rw [hlease, he]; rfl
    unfold activeExecutionLease at hidle
    rw [hid, he] at hidle
    simpa using hidle

theorem activeExecutionLease_clear (r : ApprovalRecord) (now : Instant) :
    activeExecutionLease (clearExpiredExecutionLease r now) now = activeExecutionLease r now := by
  rcases clearExpiredExecutionLease_cases r now with h | ⟨hpassed, h⟩
  · rw [h]
  · rw [h, not_active_of_passed hpassed]
    rfl

-- ===== pruning

/-- A record that pruning drops. -/
def Lapsed (now : Instant) (r : ApprovalRecord) : Prop :=
  r.createdAt.val < now.val - retentionMs ∨ r.status = .pending ∧ r.pendingExpiresAt.val ≤ now.val
    ∨ r.status = .approved ∧ activeExecutionLease r now = false ∧ passed r.approvalExpiresAt now

theorem lapsed_of_pruneRecord (h : pruneRecord now r = none) : Lapsed now r := by
  unfold pruneRecord at h
  split at h
  · next hold => exact .inl hold
  split at h
  · next hpending => exact .inr (.inl hpending)
  split at h
  · next happroved =>
    dsimp only at h
    split at h
    · cases h
    · next hidle =>
      split at h
      · next hpassed =>
        refine .inr (.inr ⟨happroved, ?_, ?_⟩)
        · rw [← activeExecutionLease_clear]
          exact Bool.eq_false_iff.2 hidle
        · rcases clearExpiredExecutionLease_cases r now with heq | ⟨-, heq⟩
          · rwa [heq] at hpassed
          · rwa [heq] at hpassed
      · cases h
  · cases h

/-- What pruning leaves of a record. -/
theorem pruneRecord_eq_some {x : ApprovalRecord} (h : pruneRecord now r = some x) :
    (x = r ∨ r.status = .approved ∧ passed r.executionLeaseExpiresAt now ∧ x = withoutLease r)
    ∧ (x.status = .approved → clearExpiredExecutionLease x now = x) := by
  have hcleared : r.status = .approved → x = clearExpiredExecutionLease r now →
      (x = r ∨ r.status = .approved ∧ passed r.executionLeaseExpiresAt now ∧ x = withoutLease r)
        ∧ (x.status = .approved → clearExpiredExecutionLease x now = x) := by
    intro happroved hx
    rcases clearExpiredExecutionLease_cases r now with heq | ⟨hpassed, heq⟩
    · rw [heq] at hx
      subst hx
      exact ⟨.inl rfl, fun _ => heq⟩
    · rw [heq] at hx
      subst hx
      exact ⟨.inr ⟨happroved, hpassed, rfl⟩,
        fun _ => clearExpiredExecutionLease_withoutLease r now⟩
  unfold pruneRecord at h
  split at h
  · cases h
  split at h
  · cases h
  split at h
  · next happroved =>
    dsimp only at h
    split at h
    · exact hcleared happroved (Option.some.inj h).symm
    · split at h
      · cases h
      · exact hcleared happroved (Option.some.inj h).symm
  · next hother =>
    cases h
    exact ⟨.inl rfl, fun happroved => absurd happroved hother⟩

-- ===== moves

def Call.prunes : Call → Prop
  | .register .. | .list | .isApproved .. | .claim .. => True
  | _ => False

/-- The record of an action a call is not about. -/
inductive Tidied (turn : Turn) : Option ApprovalRecord → Option ApprovalRecord → Prop
  | kept (o : Option ApprovalRecord) : Tidied turn o o
  | dropped {r : ApprovalRecord} (lapsed : Lapsed turn.env.now r) : Tidied turn (some r) none
  | cleared {r : ApprovalRecord} (approved : r.status = .approved)
      (hover : passed r.executionLeaseExpiresAt turn.env.now) (prunes : turn.call.prunes) :
      Tidied turn (some r) (some (withoutLease r))

/-- A record as `register` makes it. -/
structure Requested (now : Instant) (r : ApprovalRecord) : Prop where
  pending : r.status = .pending
  createdAt : r.createdAt = now
  expires : now.later pendingTtlMs = .ok r.pendingExpiresAt
  approvedAt : r.approvedAt = none
  approvalExpiresAt : r.approvalExpiresAt = none
  lease : r.executionLeaseId = none
  leaseExpiresAt : r.executionLeaseExpiresAt = none

/-- The record of the action of a call, and what the caller is told. -/
inductive Moves (turn : Turn) :
    Option ApprovalRecord → Option ApprovalRecord → List Event → Prop
  | tidied {o o' : Option ApprovalRecord} (h : Tidied turn o o') : Moves turn o o' []
  | overtaken {r : ApprovalRecord}
      (call : turn.call = .approve r.actionId r.approvalRequestId.val)
      (hover : r.pendingExpiresAt.val ≤ turn.env.now.val) : Moves turn (some r) none []
  | requested {o : Option ApprovalRecord} {r : ApprovalRecord} (prunes : turn.call.prunes)
      (drawn : r.approvalRequestId ∈ turn.call.draws) (requested : Requested turn.env.now r)
      (free : ∀ x ∈ o, Lapsed turn.env.now x ∨ activeExecutionLease x turn.env.now = false) :
      Moves turn o (some r) []
  | approved {r : ApprovalRecord} {expiresAt : Instant} (pending : r.status = .pending)
      (inTime : turn.env.now.val < r.pendingExpiresAt.val)
      (expires : turn.env.now.later approvalTtlMs = .ok expiresAt) :
      Moves turn (some r) (some (approvedOf r turn.env.now expiresAt))
        [.approved (approvedOf r turn.env.now expiresAt)]
  | denied {r : ApprovalRecord}
      (call : turn.call = .deny r.actionId r.approvalRequestId.val)
      (live : r.status = .pending ∨ r.status = .approved)
      (idle : activeExecutionLease r turn.env.now = false) :
      Moves turn (some r) (some (deniedOf (withoutLease r) turn.env.now))
        [.denied (deniedOf (withoutLease r) turn.env.now)]
  | granted {r : ApprovalRecord} {leaseId : Uuid} {expiresAt : Instant}
      (prunes : turn.call.prunes) (drawn : leaseId ∈ turn.call.draws)
      (approved : r.status = .approved) (idle : activeExecutionLease r turn.env.now = false)
      (inTime : ¬ passed r.approvalExpiresAt turn.env.now)
      (expires : turn.env.now.later executionLeaseMs = .ok expiresAt) :
      Moves turn (some r) (some (leasedOf r leaseId expiresAt))
        [.granted (leasedOf r leaseId expiresAt)]
  | consumed {r : ApprovalRecord} {consumedAt : Instant} (approved : r.status = .approved) :
      Moves turn (some r) (some (consumedOf (withoutLease r) consumedAt)) [.consumed r]
  | released {r : ApprovalRecord} {o : Option ApprovalRecord} {action : ActionRequest}
      {leaseId : Uuid} {authority : Option ApprovalAuthorityContext}
      (call : turn.call = .settle action leaseId.val .release authority)
      (own : action.id = r.actionId) (lease : r.executionLeaseId = some leaseId)
      (approved : r.status = .approved)
      (left : o = none ∨ o = some (withoutLease r)) : Moves turn (some r) o [.released r]

/-- One call: its own action, and every other. -/
def Changes (turn : Turn) (stored state : State) (events : List Event) : Prop :=
  ∃ own, Moves turn (recordOf? stored own) (recordOf? state own) events
    ∧ ∀ id, id ≠ own → Tidied turn (recordOf? stored id) (recordOf? state id)

theorem Changes.refl (turn : Turn) (stored : State) : Changes turn stored stored [] :=
  ⟨"", Moves.tidied (Tidied.kept _), fun _ _ => Tidied.kept _⟩

section
variable {sha256 : Sha256} {turn : Turn} {env : Environment} {stored state : State}

theorem tidied_prune (hvalid : ValidState stored) (hprunes : turn.call.prunes) (id : String) :
    Tidied turn (recordOf? stored id) (recordOf? (prune stored turn.env.now) id) := by
  rw [recordOf?_prune hvalid]
  cases hr : recordOf? stored id with
  | none => exact Tidied.kept none
  | some r =>
    rw [Option.bind_some]
    cases hx : pruneRecord turn.env.now r with
    | none => exact Tidied.dropped (lapsed_of_pruneRecord hx)
    | some x =>
      obtain ⟨rfl | ⟨happroved, hover, rfl⟩, -⟩ := pruneRecord_eq_some hx
      · exact Tidied.kept _
      · exact Tidied.cleared happroved hover hprunes

theorem changes_prune (hvalid : ValidState stored) (hprunes : turn.call.prunes) :
    Changes turn stored (prune stored turn.env.now) [] :=
  ⟨"", Moves.tidied (tidied_prune hvalid hprunes _), fun id _ => tidied_prune hvalid hprunes id⟩

theorem recordOf?_of_prune (hvalid : ValidState stored) {now : Instant} {id : String}
    {x : ApprovalRecord} (h : recordOf? (prune stored now) id = some x) :
    ∃ r, recordOf? stored id = some r
    ∧ (x = r ∨ r.status = .approved ∧ passed r.executionLeaseExpiresAt now ∧ x = withoutLease r)
    ∧ (x.status = .approved → clearExpiredExecutionLease x now = x)
    ∧ activeExecutionLease r now = activeExecutionLease x now := by
  rw [recordOf?_prune hvalid] at h
  obtain ⟨r, hr, hx⟩ := Option.bind_eq_some_iff.1 h
  obtain ⟨hcases, hclear⟩ := pruneRecord_eq_some hx
  refine ⟨r, hr, hcases, hclear, ?_⟩
  rcases hcases with rfl | ⟨-, hover, rfl⟩
  · rfl
  · rw [not_active_of_passed hover]
    rfl

theorem recordOf?_put_self {x : ApprovalRecord} {own : String}
    (h : recordOf? state own = some x) (id : String) :
    recordOf? (put state x) id = recordOf? state id := by
  rw [recordOf?_put]
  split
  · next hid =>
    rw [hid, (recordOf?_mem h).2, h, Option.map_some]
  · rfl

end

end OperatorRuntime.Approval
