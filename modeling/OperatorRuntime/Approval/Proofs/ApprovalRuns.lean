/-
The runs of the approval store. A claim is granted on an approval alone
(`claim_approved`); an action has one lease at a time (`outstanding_held`)
as long as nobody approves again a request that is executing, past its
pending window; and the holder of a lease can consume the approval until
the approval is over (`held_or_consumed`) as long as the store keeps the
lease. It does not: pruning, which `list`, `register`, `isApproved` and
`claim` begin with, takes an expired lease away from its holder, and the
approval that executed is approved still (`pruned_lease_replays`).
-/
import OperatorRuntime.Approval.Proofs.Holding

namespace OperatorRuntime.Approval

open Lib

section
variable {sha256 : Sha256} {m m' : Machine} {turn : Turn} {g : ApprovalRecord}

variable {turns : List Turn} {now : Instant}

theorem inv_of_run (h : Run (stepsOf (step sha256)) (start now) turns m) : Inv m :=
  h.invariant (Inv.start now) fun hinv hstep => hinv.step hstep

/-- Events are only added. -/
theorem log_subset_of_run (h : Run (stepsOf (step sha256)) m turns m') : m.log ⊆ m'.log := by
  refine h.invariant (I := fun x => m.log ⊆ x.log) (fun _ he => he) ?_
  intro x y turn hsub hstep
  obtain ⟨-, rfl⟩ := step_eq_some hstep
  exact fun e he => List.mem_append_left _ (hsub he)

theorem now_le_of_step (h : step sha256 m turn = some m') :
    m.now.val ≤ turn.env.now.val ∧ turn.env.now.val ≤ m'.now.val := by
  obtain ⟨⟨hnow, hnow', -⟩, rfl⟩ := step_eq_some h
  exact ⟨hnow, hnow'⟩

-- ===== granting

theorem recordOf?_of_granted (hinv : Inv m) (h : step sha256 m turn = some m')
    (hg : .granted g ∈ (turn.run sha256 m.stored).2) :
    recordOf? m'.stored g.actionId = some g ∧ g.status = .approved
    ∧ g.executionLeaseId.isSome = true := by
  obtain ⟨-, rfl⟩ := step_eq_some h
  obtain ⟨-, own, hmove, -⟩ := @Turn.run_ran sha256 _ hinv.valid turn
  show recordOf? (turn.run sha256 m.stored).1 g.actionId = some g ∧ _
  generalize ho : recordOf? m.stored own = o at hmove
  generalize ho' : recordOf? (turn.run sha256 m.stored).1 own = o' at hmove
  generalize (turn.run sha256 m.stored).2 = events at hmove hg
  cases hmove with
  | tidied _ => cases hg
  | overtaken _ _ => cases hg
  | requested _ _ _ _ => cases hg
  | approved _ _ _ => cases List.mem_singleton.1 hg
  | denied _ _ _ => cases List.mem_singleton.1 hg
  | granted _ _ happroved _ _ _ =>
    cases List.mem_singleton.1 hg
    have hid := (recordOf?_mem ho').2
    exact ⟨by rw [hid, ho'], happroved, rfl⟩
  | consumed _ => cases List.mem_singleton.1 hg
  | released _ _ _ _ _ => cases List.mem_singleton.1 hg

variable {env : Environment} {action : ActionRequest}
  {authority : Option ApprovalAuthorityContext} {leaseId : Uuid}

theorem approvedFor_of_granted (hinv : Inv m) (hg : .granted g
      ∈ (Turn.run sha256 ⟨env, .claim action authority leaseId⟩ m.stored).2) :
    ∃ bound, approvalAuthorityFingerprint sha256 authority = .ok bound
    ∧ g.actionId = action.id ∧ approvedFor g (actionHash sha256 action) bound = true := by
  unfold Turn.run at hg
  dsimp only at hg
  cases hclaim : claim sha256 env.made m.stored action authority leaseId with
  | mk state answer =>
    rw [hclaim] at hg
    cases hbound : approvalAuthorityFingerprint sha256 authority with
    | error e =>
      rw [claim, hbound] at hclaim
      cases hclaim
      cases hg
    | ok bound =>
      cases answer with
      | error e => cases hg
      | ok answer =>
        obtain ⟨-, ⟨rfl, -⟩ | ⟨x, expiresAt, hx, hfor, -, -, -, rfl, rfl⟩⟩ :=
          claim_eq_ok hinv.valid hbound hclaim
        · cases hg
        · have hid : x.actionId = action.id := (recordOf?_mem hx).2
          dsimp only at hg
          rw [recordOf?_leased hx] at hg
          cases List.mem_singleton.1 hg
          exact ⟨bound, rfl, hid, hfor⟩

theorem claim_approved (hinv : Inv m) {lease : Uuid}
    (h : (claim sha256 env m.stored action authority leaseId).2 = .ok (some lease)) :
    ∃ bound r a e, approvalAuthorityFingerprint sha256 authority = .ok bound
    ∧ recordOf? m.stored action.id = some r
    ∧ .approved a ∈ m.log ∧ a.approvalRequestId = r.approvalRequestId
    ∧ a.actionId = action.id ∧ a.actionHash = actionHash sha256 action ∧ a.authorityHash = bound
    ∧ a.approvalExpiresAt = some e ∧ env.now.val < e.val
    ∧ (∀ d, .denied d ∈ m.log → d.approvalRequestId ≠ r.approvalRequestId)
    ∧ ∀ c, .consumed c ∈ m.log → c.approvalRequestId ≠ r.approvalRequestId := by
  cases hclaim : claim sha256 env m.stored action authority leaseId with
  | mk state answer =>
    rw [hclaim] at h
    dsimp only at h
    subst h
    cases hbound : approvalAuthorityFingerprint sha256 authority with
    | error e =>
      rw [claim, hbound] at hclaim
      cases hclaim
    | ok bound =>
      obtain ⟨-, ⟨hnone, -⟩ | ⟨x, expiresAt, hx, hfor, -, hopen, -, -, -⟩⟩ :=
        claim_eq_ok hinv.valid hbound hclaim
      · cases hnone
      obtain ⟨happroved, hhash, hauthority⟩ := approvedFor_eq_true.1 hfor
      obtain ⟨r, hr, hcases, -, -⟩ := recordOf?_of_prune hinv.valid hx
      have hrx : r.status = x.status ∧ r.actionHash = x.actionHash
          ∧ r.authorityHash = x.authorityHash
          ∧ r.approvalExpiresAt = x.approvalExpiresAt := by
        rcases hcases with rfl | ⟨-, -, rfl⟩
        · exact ⟨rfl, rfl, rfl, rfl⟩
        · exact ⟨rfl, rfl, rfl, rfl⟩
      obtain ⟨hstatus, hrhash, hrauthority, hrends⟩ := hrx
      rw [happroved] at hstatus
      obtain ⟨hin, hid⟩ := recordOf?_mem hr
      have hkept := hinv.kept r hin
      obtain ⟨a, ha, haction, hrequest, hahash, haauthority, haends⟩ := hkept.approved hstatus
      unfold passed at hopen
      push Not at hopen
      obtain ⟨e, he, hlt⟩ := hopen
      refine ⟨bound, r, a, e, rfl, hr, ha, hrequest, haction.trans hid, ?_, ?_, ?_, hlt, ?_, ?_⟩
      · rw [hahash, hrhash, hhash]
      · rw [haauthority, hrauthority, hauthority]
      · rw [haends, hrends]
        exact he
      · exact fun d hd => hkept.not_denied (by rw [hstatus]; decide) hd
      · exact fun c hc => hkept.not_consumed (by rw [hstatus]; decide) hc

-- ===== one lease

/-- Every lease that is outstanding is the one in the store. -/
def Current (m : Machine) : Prop :=
  ∀ g, Outstanding m g → recordOf? m.stored g.actionId = some g ∧ g.status = .approved
    ∧ g.executionLeaseId.isSome = true

/-- One turn that spares what is outstanding. -/
theorem Current.step (hinv : Inv m) (hcurrent : Current m)
    (h : step sha256 m turn = some m') (hspares : Spares m turn) : Current m' := by
  obtain ⟨hnow, hnow'⟩ := now_le_of_step h
  intro g hg
  obtain ⟨hgranted, ⟨e, he, hlt⟩, hopen⟩ := hg
  have hlog : m'.log = m.log ++ (turn.run sha256 m.stored).2 := by
    obtain ⟨-, rfl⟩ := step_eq_some h
    rfl
  rw [hlog] at hgranted
  rcases List.mem_append.1 hgranted with hold | hnew
  · obtain ⟨hfind, happroved, hlease⟩ := hcurrent g ⟨hold, ⟨e, he, by omega⟩, by
      intro r hr
      refine hopen r ?_
      rw [hlog]
      rcases hr with hr | hr
      · exact .inl (List.mem_append_left _ hr)
      · exact .inr (List.mem_append_left _ hr)⟩
    have hnot : ¬ passed g.executionLeaseExpiresAt turn.env.now := by
      intro hpassed
      have hle := hpassed e he
      omega
    rcases hold_cases hinv hfind happroved h with
      hsame | hconsumed | ⟨hreleased, -⟩ | ⟨hpassed, -⟩ | ⟨hcall, hover⟩
    · exact ⟨hsame, happroved, hlease⟩
    · exact absurd rfl (hopen g (.inl hconsumed))
    · exact absurd rfl (hopen g (.inr hreleased))
    · exact absurd hpassed hnot
    · exfalso
      rw [Spares, hcall] at hspares
      have hactive : activeExecutionLease g turn.env.now = true := by
        cases hidle : activeExecutionLease g turn.env.now with
        | true => rfl
        | false =>
          exact absurd (passed_of_idle (hinv.valid.valid g (recordOf?_mem hfind).1) hidle) hnot
      have hopen' := hspares g (recordOf?_mem hfind).1 rfl rfl hactive
      omega
  · exact recordOf?_of_granted hinv h hnew

theorem outstanding_held (h : Run (Where (stepsOf (step sha256)) Spares) (start now) turns m) :
    Inv m ∧ Current m := by
  refine h.invariant (I := fun x => Inv x ∧ Current x) ⟨Inv.start now, ?_⟩ ?_
  · intro g hg
    exact absurd hg.1 List.not_mem_nil
  · rintro x y turn ⟨hinv, hcurrent⟩ ⟨hstep, hspares⟩
    exact ⟨hinv.step hstep, hcurrent.step hinv hstep hspares⟩

variable {stored : State} {bound : Hex64}

theorem claim_grants {x : ApprovalRecord} {expiresAt : Instant} {state : State}
    (hvalid : ValidState stored) (hstate : ValidState state) (hdisk : env.disk = .durable)
    (hbound : approvalAuthorityFingerprint sha256 authority = .ok bound)
    (hx : recordOf? (prune stored env.now) action.id = some x)
    (hfor : approvedFor x (actionHash sha256 action) bound = true)
    (hidle : requireIdle x env.now "Approved action is already executing." = .ok x)
    (hopen : ¬ passed x.approvalExpiresAt env.now)
    (hexpires : env.now.later executionLeaseMs = .ok expiresAt)
    (hput : put (put (prune stored env.now) x) (leasedOf x leaseId expiresAt) = state) :
    claim sha256 env stored action authority leaseId = (state, .ok (some leaseId)) := by
  subst hput
  unfold claim
  rw [hbound, hdisk]
  refine mutate_eq_ok hvalid ?_ hstate
  dsimp only
  rw [hx]
  dsimp only
  rw [if_neg (by rw [hfor]; decide), hidle, ok_bind, if_neg hopen, hexpires]
  rfl

-- ===== consuming

/-- A request was consumed. -/
def Consumed (m : Machine) (g : ApprovalRecord) : Prop :=
  ∃ c, .consumed c ∈ m.log ∧ c.approvalRequestId = g.approvalRequestId

/-- Until its approval ends, a held record stays or is consumed. -/
theorem held_or_consumed (hinv : Inv m) (hfind : recordOf? m.stored g.actionId = some g)
    (happroved : g.status = .approved)
    (h : Run (Where (stepsOf (step sha256)) fun _ turn => Leaves g turn) m turns m') :
    Inv m' ∧ (¬ passed g.approvalExpiresAt m'.now →
      recordOf? m'.stored g.actionId = some g ∨ Consumed m' g) := by
  refine h.invariant (I := fun x => Inv x ∧ (¬ passed g.approvalExpiresAt x.now →
    recordOf? x.stored g.actionId = some g ∨ Consumed x g)) ⟨hinv, fun _ => .inl hfind⟩ ?_
  rintro x y turn ⟨hinv, hheld⟩ ⟨hstep, hleaves⟩
  refine ⟨hinv.step hstep, ?_⟩
  intro hopen
  obtain ⟨hnow, hnow'⟩ := now_le_of_step hstep
  have hearlier : ∀ t : Instant, t.val ≤ y.now.val → ¬ passed g.approvalExpiresAt t := by
    intro t ht hpassed
    exact hopen fun e he => (hpassed e he).trans ht
  rcases hheld (hearlier x.now (hnow.trans hnow')) with hfind | ⟨c, hc, hid⟩
  · rcases hold_cases hinv hfind happroved hstep with
      hsame | hconsumed | ⟨-, action, leaseId, authority, hcall, haction, hlease⟩ |
      ⟨hpassed, hprunes | hcall | hover⟩ | ⟨hcall, hover⟩
    · exact .inl hsame
    · exact .inr ⟨g, hconsumed, rfl⟩
    · rw [Leaves, hcall] at hleaves
      cases hleaves haction hlease
    · exfalso
      unfold Leaves at hleaves
      cases hcall : turn.call with
      | register _ _ _ => rw [hcall] at hleaves; exact hleaves hpassed
      | list => rw [hcall] at hleaves; exact hleaves hpassed
      | isApproved _ _ => rw [hcall] at hleaves; exact hleaves hpassed
      | claim _ _ _ => rw [hcall] at hleaves; exact hleaves hpassed
      | approve _ _ => rw [hcall] at hprunes; exact hprunes
      | deny _ _ => rw [hcall] at hprunes; exact hprunes
      | settle _ _ _ _ => rw [hcall] at hprunes; exact hprunes
      | consume _ _ _ => rw [hcall] at hprunes; exact hprunes
    · rw [Leaves, hcall] at hleaves
      exact absurd hpassed (hleaves rfl rfl)
    · exact absurd hover (hearlier turn.env.now hnow')
    · rw [Leaves, hcall] at hleaves
      have hopen' := hleaves rfl rfl
      omega
  · refine .inr ⟨c, ?_, hid⟩
    obtain ⟨-, rfl⟩ := step_eq_some hstep
    exact List.mem_append_left _ hc

theorem ValidRecord.consumed (h : ValidRecord g) (happroved : g.status = .approved)
    (hbefore : ∀ a ∈ g.approvedAt, a.val ≤ now.val) :
    ValidRecord (consumedOf (Approval.withoutLease g) now) := by
  obtain ⟨_, -, hrest⟩ := bind_eq_ok.1 h.status
  obtain ⟨_, hmeta, -⟩ := bind_eq_ok.1 hrest
  obtain ⟨_, hordered, hrest⟩ := bind_eq_ok.1 h.times
  obtain ⟨_, hends, -⟩ := bind_eq_ok.1 hrest
  have hmeta' := corruptIf_eq_ok.1 hmeta
  simp only [happroved, true_and, not_or] at hmeta'
  obtain ⟨hat, hexp, -, hdenied⟩ := hmeta'
  refine ⟨h.actionId, h.capability, h.target, h.pending, rfl, ?_, ?_⟩
  · unfold checkStatus
    refine bind_eq_ok.2 ⟨(), corruptIf_eq_ok.2 fun hc => (nomatch hc.1), ?_⟩
    refine bind_eq_ok.2 ⟨(), corruptIf_eq_ok.2 fun hc => (nomatch hc.1), ?_⟩
    refine bind_eq_ok.2 ⟨(), corruptIf_eq_ok.2 ?_, ?_⟩
    · rintro ⟨-, hc | hc | hc | hc | hc⟩
      · exact hat hc
      · exact hexp hc
      · cases hc
      · exact hdenied hc
      · cases hc
    · exact corruptIf_eq_ok.2 fun hc => (nomatch hc.1)
  · unfold checkTimes
    refine bind_eq_ok.2 ⟨(), hordered, ?_⟩
    refine bind_eq_ok.2 ⟨(), hends, ?_⟩
    refine bind_eq_ok.2 ⟨(), corruptIf_eq_ok.2 ?_, corruptIf_eq_ok.2 ?_⟩
    · rintro ⟨c, hc, a, ha, hlt⟩
      cases hc
      have hle := hbefore a ha
      omega
    · rintro ⟨e, he, -⟩
      cases he

theorem requireApproved_of_find {hash authorityHash : Hex64}
    (hfind : recordOf? stored action.id = some g) (hfor : approvedFor g hash authorityHash = true) :
    requireApproved stored action hash authorityHash = .ok g := by
  unfold requireApproved requireRecord
  rw [hfind]
  exact bind_eq_ok.2 ⟨g, rfl, bind_eq_ok.2 ⟨(), rejectIf_of_not (by rw [hfor]; decide), rfl⟩⟩

theorem settle_consumes (hinv : Inv m) (hnow : m.now.val ≤ env.now.val)
    (hwritten : env.written = true)
    (hbound : approvalAuthorityFingerprint sha256 authority = .ok bound)
    (hfind : recordOf? m.stored action.id = some g)
    (hfor : approvedFor g (actionHash sha256 action) bound = true)
    (hlease : g.executionLeaseId = some leaseId) :
    settle sha256 env.made m.stored action leaseId.val .consume authority
    = (put m.stored (consumedOf (withoutLease g) env.now), .ok ()) := by
  obtain ⟨hin, hid⟩ := recordOf?_mem hfind
  have hkept := hinv.kept g hin
  have hdisk : env.made.disk = .durable := by simp only [hwritten, if_true]
  unfold settle
  rw [hbound, hdisk]
  refine mutate_eq_ok hinv.valid ?_ ?_
  · refine bind_eq_ok.2 ⟨g, requireApproved_of_find hfind hfor, ?_⟩
    refine bind_eq_ok.2 ⟨(), rejectIf_of_not ?_, rfl⟩
    rw [isUuid_val, hlease]
    simp
  · have happroved := (approvedFor_eq_true.1 hfor).1
    have hown : recordOf? m.stored g.actionId = some g := by rw [hid, hfind]
    exact hinv.valid.put hown rfl rfl ((hinv.valid.valid g hin).consumed happroved
      fun a ha => (hkept.approvedBefore a ha).trans hnow)

theorem settle_without_lease {executionLeaseId : String} {outcome : SettleOutcome}
    (hvalid : ValidState stored)
    (hbound : approvalAuthorityFingerprint sha256 authority = .ok bound)
    (hfind : recordOf? stored action.id = some g)
    (hfor : approvedFor g (actionHash sha256 action) bound = true)
    (hlease : g.executionLeaseId = none) :
    settle sha256 env stored action executionLeaseId outcome authority
    = (stored, fail .approvalExecutionLeaseMismatch
        "Approval execution lease is stale or invalid.") := by
  unfold settle
  rw [hbound]
  refine mutate_eq_error hvalid ?_
  dsimp only
  have hbad : isUuid executionLeaseId = false
      ∨ g.executionLeaseId.map (·.val) ≠ some executionLeaseId := by
    rw [hlease]
    exact .inr fun h => (nomatch h)
  rw [requireApproved_of_find hfind hfor, ok_bind, rejectIf, if_pos hbad]
  rfl

end

-- ===== a sample

def sampleAction : ActionRequest where
  id := "a"
  capability := "c"
  risk := .write
  input := []
  provenance := []
  target := none
  intent := none

def requestUuid : Uuid := onesUuid
def leaseUuid : Uuid := twosUuid
def replayUuid : Uuid := ⟨"33333333-3333-4333-8333-333333333333", by decide⟩

/-- A time of the first day. -/
def instant (ms : Fin 86400000) : Instant := ⟨ms.val, by omega⟩

def atMs (ms : Fin 86400000) : Environment := ⟨instant ms, .durable⟩

theorem made_atMs (ms : Fin 86400000) : (atMs ms).made = atMs ms := rfl

section
variable (hash authorityHash : Hex64)

/-- A request of the sample action at time 0. -/
def sampleRecord : ApprovalRecord where
  actionId := "a"
  actionHash := hash
  authorityHash := authorityHash
  approvalRequestId := requestUuid
  capability := "c"
  risk := .write
  target := none
  status := .pending
  createdAt := instant 0
  pendingExpiresAt := instant 600000

def sampleApproved : ApprovalRecord :=
  approvedOf (sampleRecord hash authorityHash) (instant 0) (instant 600000)

def sampleLeased : ApprovalRecord :=
  leasedOf (sampleApproved hash authorityHash) leaseUuid (instant 121000)

def sampleReplayed : ApprovalRecord :=
  leasedOf (sampleApproved hash authorityHash) replayUuid (instant 242000)

def zeroHash : Hex64 := ⟨String.ofList (List.replicate 64 '0'), by decide⟩

theorem validState_of_hashes {r : ApprovalRecord} (h : validateState [r] = .ok [r]) :
    ValidState [{ r with actionHash := hash, authorityHash := authorityHash }] := by
  obtain ⟨-, hvalid⟩ := validateState_eq_ok.1 h
  have hr := hvalid.valid r (List.mem_singleton.2 rfl)
  refine ⟨hvalid.few, ?_, hvalid.actions, hvalid.requests⟩
  intro x hx
  rw [List.mem_singleton.1 hx]
  exact ⟨hr.actionId, hr.capability, hr.target, hr.pending, hr.lease, hr.status, hr.times⟩

theorem sampleRecord_valid : ValidState [sampleRecord hash authorityHash] :=
  @validState_of_hashes hash authorityHash (sampleRecord zeroHash zeroHash) (by decide)

theorem sampleApproved_valid : ValidState [sampleApproved hash authorityHash] :=
  @validState_of_hashes hash authorityHash (sampleApproved zeroHash zeroHash)
    (by decide)

theorem sampleLeased_valid : ValidState [sampleLeased hash authorityHash] :=
  @validState_of_hashes hash authorityHash (sampleLeased zeroHash zeroHash) (by decide)

theorem sampleReplayed_valid : ValidState [sampleReplayed hash authorityHash] :=
  @validState_of_hashes hash authorityHash (sampleReplayed zeroHash zeroHash)
    (by decide)

theorem approve_sample : approve (atMs 0) [sampleRecord hash authorityHash] "a" requestUuid.val
    = ([sampleApproved hash authorityHash], .ok (sampleApproved hash authorityHash)) :=
  congrArg (unlessExpired _) (@mutate_eq_ok _ _ _ (some (sampleApproved hash authorityHash)) _
    (sampleRecord_valid hash authorityHash) rfl (sampleApproved_valid hash authorityHash))

theorem not_passed_sample {ms : Fin 86400000} (h : ms.val < 600000) :
    ¬ passed (sampleApproved hash authorityHash).approvalExpiresAt (instant ms) := by
  intro hpassed
  have hle : (600000 : Int) ≤ ms.val := hpassed (instant 600000) rfl
  omega

theorem list_sample : list (atMs 121000) [sampleLeased hash authorityHash]
    = ([sampleApproved hash authorityHash], .ok [sampleApproved hash authorityHash]) :=
  mutate_eq_ok (sampleLeased_valid hash authorityHash) rfl
    (sampleApproved_valid hash authorityHash)

end

section
variable (sha256 : Sha256)

def localHash : Hex64 := sha256.digest (.obj [("kind", .str "local")])

theorem register_sample : register sha256 (atMs 0) [] sampleAction none requestUuid
    = ([sampleRecord (actionHash sha256 sampleAction) (localHash sha256)],
        .ok (sampleRecord (actionHash sha256 sampleAction) (localHash sha256))) :=
  mutate_eq_ok (Inv.start (instant 0)).valid rfl (sampleRecord_valid _ _)

theorem claim_sample : claim sha256 (atMs 1000)
      [sampleApproved (actionHash sha256 sampleAction) (localHash sha256)] sampleAction none
      leaseUuid
    = ([sampleLeased (actionHash sha256 sampleAction) (localHash sha256)], .ok (some leaseUuid)) :=
  @claim_grants _ _ _ _ _ _ _ (sampleApproved _ (localHash sha256)) _ _
    (sampleApproved_valid _ _) (sampleLeased_valid _ _) rfl rfl rfl
    (approvedFor_eq_true.2 ⟨rfl, rfl, rfl⟩) rfl (not_passed_sample _ _ (by decide)) rfl rfl

theorem replay_sample : claim sha256 (atMs 122000)
      [sampleApproved (actionHash sha256 sampleAction) (localHash sha256)] sampleAction none
      replayUuid = ([sampleReplayed (actionHash sha256 sampleAction) (localHash sha256)],
        .ok (some replayUuid)) :=
  @claim_grants _ _ _ _ _ _ _ (sampleApproved _ (localHash sha256)) _ _
    (sampleApproved_valid _ _) (sampleReplayed_valid _ _) rfl rfl rfl
    (approvedFor_eq_true.2 ⟨rfl, rfl, rfl⟩) rfl (not_passed_sample _ _ (by decide)) rfl rfl

/-- The machine after the claim, and the one after `list`. -/
def leasedMachine : Machine where
  stored := [sampleLeased (actionHash sha256 sampleAction) (localHash sha256)]
  now := instant 1000
  drawn := [requestUuid, leaseUuid]
  log := [.approved (sampleApproved (actionHash sha256 sampleAction) (localHash sha256)),
    .granted (sampleLeased (actionHash sha256 sampleAction) (localHash sha256))]

def prunedMachine : Machine :=
  { leasedMachine sha256 with
    stored := [sampleApproved (actionHash sha256 sampleAction) (localHash sha256)]
    now := instant 121000 }

def approvedMachine : Machine where
  stored := [sampleApproved (actionHash sha256 sampleAction) (localHash sha256)]
  now := instant 0
  drawn := [requestUuid]
  log := [.approved (sampleApproved (actionHash sha256 sampleAction) (localHash sha256))]

theorem approvedMachine_stored : (approvedMachine sha256).stored
    = [sampleApproved (actionHash sha256 sampleAction) (localHash sha256)] := rfl

theorem prunedMachine_stored : (prunedMachine sha256).stored
    = [sampleApproved (actionHash sha256 sampleAction) (localHash sha256)] := rfl

theorem claimed_sample : Turn.run sha256 ⟨atMs 1000, .claim sampleAction none leaseUuid⟩
      [sampleApproved (actionHash sha256 sampleAction) (localHash sha256)]
    = ([sampleLeased (actionHash sha256 sampleAction) (localHash sha256)],
        [.granted (sampleLeased (actionHash sha256 sampleAction) (localHash sha256))]) := by
  unfold Turn.run
  dsimp only
  rw [made_atMs, claim_sample]
  rfl

theorem step_eq {m : Machine} {turn : Turn} {stored : State} {events : List Event}
    (htimely : Timely m turn) (hrun : turn.run sha256 m.stored = (stored, events)) :
    step sha256 m turn
    = some ⟨stored, turn.finished, m.drawn ++ turn.call.draws, m.log ++ events⟩ := by
  unfold step
  rw [if_pos htimely]
  unfold Machine.after
  rw [hrun]

def requestedMachine : Machine where
  stored := [sampleRecord (actionHash sha256 sampleAction) (localHash sha256)]
  now := instant 0
  drawn := [requestUuid]
  log := []

theorem step_requested : step sha256 (start (instant 0))
    ⟨atMs 0, .register sampleAction none requestUuid⟩ = some (requestedMachine sha256) := by
  refine step_eq sha256 (by decide) ?_
  show ((register sha256 (atMs 0) [] sampleAction none requestUuid).1, []) = _
  rw [register_sample]

theorem step_approved : step sha256 (requestedMachine sha256)
    ⟨atMs 0, .approve "a" requestUuid.val⟩ = some (approvedMachine sha256) := by
  refine step_eq sha256 (m := requestedMachine sha256)
    (by decide : Timely ⟨[], instant 0, [requestUuid], []⟩ _) ?_
  exact congrArg
    (fun turn : List ApprovalRecord × _ => (turn.1, eventOf Event.approved (recordOf? turn.1 "a") turn.2))
    (approve_sample _ _)

theorem step_claimed : step sha256 (approvedMachine sha256)
    ⟨atMs 1000, .claim sampleAction none leaseUuid⟩ = some (leasedMachine sha256) := by
  refine step_eq sha256 (m := approvedMachine sha256)
    (by decide : Timely ⟨[], instant 0, [requestUuid], []⟩ _) (claimed_sample sha256)

theorem step_pruned : step sha256 (leasedMachine sha256) ⟨atMs 121000, .list⟩
    = some (prunedMachine sha256) := by
  refine step_eq sha256 (m := leasedMachine sha256)
    (by decide : Timely ⟨[], instant 1000, [requestUuid, leaseUuid], []⟩ _) ?_
  show ((list (atMs 121000) [sampleLeased _ _]).1, []) = _
  rw [list_sample]

theorem run_approved : Run (stepsOf (step sha256)) (start (instant 0))
    ([] ++ [⟨atMs 0, .register sampleAction none requestUuid⟩]
      ++ [⟨atMs 0, .approve "a" requestUuid.val⟩]) (approvedMachine sha256) :=
  Run.snoc (Run.snoc Run.nil (step_requested sha256)) (step_approved sha256)

theorem timely_settle {m : Machine} {ms : Fin 86400000} (h : m.now.val ≤ ms.val) :
    Timely m ⟨atMs ms, .settle sampleAction leaseUuid.val .consume none⟩ :=
  ⟨h, le_rfl, fun _ hid => nomatch hid⟩

end

-- ===== the runs

/-- Along every run: a claim is granted only on an approval of this action
for this authority that is not over, denied or consumed; in a run that
spares the leases, an action has one lease that is neither settled nor
expired; and in a run that leaves a lease to its holder, a holder that
settles it before the approval is over consumes the request, for which no
claim is granted any more. -/
theorem approval_store_sound (sha256 : Sha256) (now : Instant) :
    (∀ turns m, Run (stepsOf (step sha256)) (start now) turns m →
      ∀ (env : Environment) action authority leaseId lease,
        (claim sha256 env m.stored action authority leaseId).2 = .ok (some lease) →
        ∃ bound r a e, approvalAuthorityFingerprint sha256 authority = .ok bound
          ∧ recordOf? m.stored action.id = some r
          ∧ .approved a ∈ m.log ∧ a.approvalRequestId = r.approvalRequestId
          ∧ a.actionId = action.id ∧ a.actionHash = actionHash sha256 action
          ∧ a.authorityHash = bound ∧ a.approvalExpiresAt = some e ∧ env.now.val < e.val
          ∧ (∀ d, .denied d ∈ m.log → d.approvalRequestId ≠ r.approvalRequestId)
          ∧ ∀ c, .consumed c ∈ m.log → c.approvalRequestId ≠ r.approvalRequestId)
    ∧ (∀ turns m, Run (Where (stepsOf (step sha256)) Spares) (start now) turns m →
      ∀ g g', Outstanding m g → Outstanding m g' → g.actionId = g'.actionId → g = g')
    ∧ (∀ turns m, Run (stepsOf (step sha256)) (start now) turns m →
      ∀ (env : Environment) action authority leaseId m₁,
        step sha256 m ⟨env, .claim action authority leaseId⟩ = some m₁ →
      ∀ g, .granted g ∈ (Turn.run sha256 ⟨env, .claim action authority leaseId⟩ m.stored).2 →
      ∀ turns₂ m₂, Run (Where (stepsOf (step sha256)) fun _ turn => Leaves g turn) m₁ turns₂ m₂ →
      ∀ (env' : Environment) lease, g.executionLeaseId = some lease → env'.written = true →
        ¬ passed g.approvalExpiresAt env'.now →
      ∀ m₃, step sha256 m₂ ⟨env', .settle action lease.val .consume authority⟩ = some m₃ →
        (∃ c, .consumed c ∈ m₃.log ∧ c.approvalRequestId = g.approvalRequestId)
        ∧ (∀ r ∈ m₃.stored, r.approvalRequestId = g.approvalRequestId → r.status = .consumed)
        ∧ ∀ turns₄ m₄, Run (stepsOf (step sha256)) m₃ turns₄ m₄ →
          ∀ (env₄ : Environment) action₄ authority₄ leaseId₄ lease₄,
            (claim sha256 env₄ m₄.stored action₄ authority₄ leaseId₄).2 = .ok (some lease₄) →
            ∀ r, recordOf? m₄.stored action₄.id = some r →
              r.approvalRequestId ≠ g.approvalRequestId) := by
  refine ⟨?_, ?_, ?_⟩
  · intro turns m hrun env action authority leaseId lease hclaim
    exact claim_approved (inv_of_run hrun) hclaim
  · intro turns m hrun g g' hg hg' hid
    obtain ⟨-, hcurrent⟩ := outstanding_held hrun
    have hfind := (hcurrent g hg).1
    rw [hid, (hcurrent g' hg').1] at hfind
    exact (Option.some.inj hfind).symm
  · intro turns m hrun env action authority leaseId m₁ hclaim g hg turns₂ m₂ hleft env' lease
      hlease hwritten hopen m₃ hsettle
    have hinv := inv_of_run hrun
    obtain ⟨hfind, happroved, -⟩ := recordOf?_of_granted hinv hclaim hg
    obtain ⟨hinv₂, hheld⟩ := held_or_consumed (hinv.step hclaim) hfind happroved hleft
    obtain ⟨hnow, hnow'⟩ := now_le_of_step hsettle
    have hopen₂ : ¬ passed g.approvalExpiresAt m₂.now :=
      fun hpassed => hopen fun e he => (hpassed e he).trans hnow
    have hinv₃ := hinv₂.step hsettle
    have hconsumed : Consumed m₃ g := by
      obtain ⟨-, rfl⟩ := step_eq_some hsettle
      rcases hheld hopen₂ with hfind₂ | ⟨c, hc, hid⟩
      · obtain ⟨bound, hbound, hid, hfor⟩ := approvedFor_of_granted hinv hg
        rw [hid] at hfind₂
        have hanswer := settle_consumes hinv₂ hnow hwritten hbound hfind₂ hfor hlease
        refine ⟨g, List.mem_append_right _ ?_, rfl⟩
        unfold Turn.run
        dsimp only
        rw [hanswer, hfind₂]
        exact List.mem_singleton.2 rfl
      · exact ⟨c, List.mem_append_left _ hc, hid⟩
    refine ⟨hconsumed, ?_, ?_⟩
    · intro r hr hid
      obtain ⟨c, hc, hcid⟩ := hconsumed
      exact (hinv₃.kept r hr).consumed c hc (hcid.trans hid.symm)
    · intro turns₄ m₄ hrun₄ env₄ action₄ authority₄ leaseId₄ lease₄ hclaim₄ r hr hid
      obtain ⟨c, hc, hcid⟩ := hconsumed
      have hinv₄ : Inv m₄ := hrun₄.invariant hinv₃ fun h hstep => h.step hstep
      obtain ⟨bound, r', a, e, -, hr', -, -, -, -, -, -, -, -, hnone⟩ :=
        claim_approved hinv₄ hclaim₄
      rw [hr] at hr'
      cases hr'
      exact hnone c (log_subset_of_run hrun₄ hc) (hcid.trans hid.symm)

/-- The holder of a lease that settles it a second later. -/
theorem approval_store_sound_settled : ∃ m, step sha256Utf8 (leasedMachine sha256Utf8)
        ⟨atMs 2000, .settle sampleAction leaseUuid.val .consume none⟩ = some m
      ∧ (∃ c, .consumed c ∈ m.log ∧ c.approvalRequestId = requestUuid)
      ∧ ∀ r ∈ m.stored, r.approvalRequestId = requestUuid → r.status = .consumed := by
  have hgranted : .granted (sampleLeased (actionHash sha256Utf8 sampleAction)
      (localHash sha256Utf8)) ∈ (Turn.run sha256Utf8
        ⟨atMs 1000, .claim sampleAction none leaseUuid⟩ (approvedMachine sha256Utf8).stored).2 := by
    rw [approvedMachine_stored, claimed_sample]
    exact List.mem_singleton.2 rfl
  have hstep := step_eq sha256Utf8 (m := leasedMachine sha256Utf8)
    (@timely_settle (leasedMachine sha256Utf8) 2000 (show (1000 : Int) ≤ 2000 by decide))
    (Prod.mk.eta (p := Turn.run sha256Utf8
      ⟨atMs 2000, .settle sampleAction leaseUuid.val .consume none⟩ _)).symm
  have hsound := (approval_store_sound sha256Utf8 (instant 0)).2.2 _ _
    (run_approved sha256Utf8) (atMs 1000) sampleAction none leaseUuid _
    (step_claimed sha256Utf8) _ hgranted [] _ Run.nil (atMs 2000) leaseUuid rfl rfl
    (not_passed_sample (actionHash sha256Utf8 sampleAction) (localHash sha256Utf8) (by decide))
    _ hstep
  exact ⟨_, hstep, hsound.1, hsound.2.1⟩

/-- Pruning takes an expired lease from its holder. A request is approved at
0 and claimed after a second; the lease is over at 121 s, where somebody
lists the store; the holder settles it there, eight minutes before the
approval is over, and is turned away. Nothing is consumed, and the next
claim of the same request is granted. -/
theorem pruned_lease_replays : ∃ m m₁ m₂ m₃ : Machine, ∃ g,
    Run (stepsOf (step sha256Utf8)) (start (instant 0))
        ([] ++ [⟨atMs 0, .register sampleAction none requestUuid⟩]
          ++ [⟨atMs 0, .approve "a" requestUuid.val⟩]) m
      ∧ step sha256Utf8 m ⟨atMs 1000, .claim sampleAction none leaseUuid⟩ = some m₁ ∧ .granted g
          ∈ (Turn.run sha256Utf8 ⟨atMs 1000, .claim sampleAction none leaseUuid⟩ m.stored).2
      ∧ g.executionLeaseId = some leaseUuid ∧ step sha256Utf8 m₁ ⟨atMs 121000, .list⟩ = some m₂
      ∧ ¬ passed g.approvalExpiresAt (atMs 121000).now
      ∧ (settle sha256Utf8 (atMs 121000) m₂.stored sampleAction leaseUuid.val .consume none).2
          = fail .approvalExecutionLeaseMismatch "Approval execution lease is stale or invalid."
      ∧ step sha256Utf8 m₂ ⟨atMs 121000, .settle sampleAction leaseUuid.val .consume none⟩ = some m₃
      ∧ (∀ c, .consumed c ∉ m₃.log)
      ∧ (claim sha256Utf8 (atMs 122000) m₃.stored sampleAction none replayUuid).2
          = .ok (some replayUuid)
      ∧ (recordOf? m₃.stored "a").map (·.approvalRequestId) = some g.approvalRequestId := by
  generalize sha256Utf8 = sha256
  have hsettle := @settle_without_lease sha256 _ (atMs 121000) sampleAction none _
    (localHash sha256) leaseUuid.val .consume (sampleApproved_valid (actionHash sha256 sampleAction)
      (localHash sha256)) rfl rfl (approvedFor_eq_true.2 ⟨rfl, rfl, rfl⟩) rfl
  have hrun : Turn.run sha256 ⟨atMs 121000, .settle sampleAction leaseUuid.val .consume none⟩
      (prunedMachine sha256).stored = ((prunedMachine sha256).stored, []) := by
    unfold Turn.run
    dsimp only
    rw [prunedMachine_stored, made_atMs, hsettle]
    rfl
  refine ⟨approvedMachine sha256, leasedMachine sha256, prunedMachine sha256, _,
    sampleLeased (actionHash sha256 sampleAction) (localHash sha256), run_approved sha256,
    step_claimed sha256, ?_, rfl, step_pruned sha256,
    not_passed_sample (actionHash sha256 sampleAction) (localHash sha256) (by decide),
    congrArg Prod.snd hsettle,
    step_eq sha256 (@timely_settle (prunedMachine sha256) 121000 (Int.le_refl _)) hrun, ?_, ?_, rfl⟩
  · rw [approvedMachine_stored, claimed_sample]
    exact List.mem_singleton.2 rfl
  · intro c hc
    rw [List.append_nil] at hc
    rcases List.mem_cons.1 hc with heq | hc
    · cases heq
    · cases List.mem_singleton.1 hc
  · show (claim sha256 (atMs 122000) [sampleApproved _ _] sampleAction none replayUuid).2 = _
    rw [replay_sample]

end OperatorRuntime.Approval
