/-
What holds of every plan runtime (`PlanInv`), and that with timestamps on
its states it is enough for the constructor to take the exported state
back unchanged. The chain of
revision proofs is read from its end: the last proof leads to the current
plan, the proofs before it to the plan that one started from.
-/
import OperatorRuntime.Plan.Proofs.Closure
import OperatorRuntime.Plan.Proofs.Normal
import OperatorRuntime.Plan.Proofs.Unsettled

namespace OperatorRuntime.Plan

open Lib

-- ===== the chain

/-- The proofs lead to a version of the plan, one version each. -/
inductive Chain (planId goalId : String) : Nat → String → List PlanRevisionProof → Prop
  | nil {version : Nat} {digest : String} : Chain planId goalId version digest []
  | snoc {proofs : List PlanRevisionProof} {proof : PlanRevisionProof} {version : Nat}
      {digest : String} :
      Chain planId goalId proof.fromVersion proof.fromPlanDigest proofs →
      proof.planId = planId → proof.goalId = goalId →
      version = proof.fromVersion + 1 → proof.toVersion = version →
      proof.toPlanDigest = digest → Chain planId goalId version digest (proofs ++ [proof])

section
variable {planId goalId digest : String} {version : Nat} {proofs : List PlanRevisionProof}

theorem Chain.fromVersion_lt (h : Chain planId goalId version digest proofs) :
    ∀ p ∈ proofs, p.fromVersion < version := by
  induction h with
  | nil => exact fun p hp => nomatch hp
  | snoc _ _ _ hnext _ _ ih =>
    intro p hp
    rcases List.mem_append.1 hp with hold | hlast
    · have hlt := ih p hold
      omega
    · rw [List.mem_singleton.1 hlast]
      omega

theorem Chain.fromVersion_nodup (h : Chain planId goalId version digest proofs) :
    (proofs.map (·.fromVersion)).Nodup := by
  induction h with
  | nil => exact List.nodup_nil
  | snoc hchain _ _ _ _ _ ih =>
    rw [List.map_append, List.nodup_append]
    refine ⟨ih, List.nodup_singleton _, ?_⟩
    intro v hv w hw
    obtain ⟨p, hp, rfl⟩ := List.mem_map.1 hv
    rw [List.map_singleton, List.mem_singleton] at hw
    have hlt := hchain.fromVersion_lt p hp
    omega

theorem checkProofs_append (previous : Option PlanRevisionProof) (seen : List Nat)
    (proofs : List PlanRevisionProof) (last : PlanRevisionProof) :
    checkProofs planId goalId previous seen (proofs ++ [last])
      = checkProofs planId goalId previous seen proofs >>= fun reached =>
          checkProofs planId goalId reached
            ((proofs.map (·.fromVersion)).reverse ++ seen) [last] := by
  induction proofs generalizing previous seen with
  | nil => rfl
  | cons proof proofs ih =>
    simp only [List.cons_append, checkProofs, ih, bind_assoc, List.map_cons,
      List.reverse_cons, List.append_assoc, List.nil_append]

theorem Chain.checkProofs_ok (h : Chain planId goalId version digest proofs) :
    ∃ reached, checkProofs planId goalId none [] proofs = .ok reached
    ∧ ∀ p ∈ reached, p.toVersion = version ∧ p.toPlanDigest = digest := by
  induction h with
  | nil => exact ⟨none, rfl, fun p hp => nomatch hp⟩
  | @snoc proofs last version digest hchain hplan hgoal hnext hto hdigest ih =>
    obtain ⟨reached, hreached, hend⟩ := ih
    refine ⟨some last, ?_, ?_⟩
    · have hfresh : last.fromVersion ∉ (proofs.map (·.fromVersion)).reverse ++ [] := by
        rw [List.append_nil, List.mem_reverse, List.mem_map]
        intro hin
        obtain ⟨p, hp, heq⟩ := hin
        have hlt := hchain.fromVersion_lt p hp
        omega
      have hjoin : ¬ ∃ p ∈ reached, p.toVersion ≠ last.fromVersion
          ∨ p.toPlanDigest ≠ last.fromPlanDigest := by
        intro hbad
        obtain ⟨p, hp, hne⟩ := hbad
        obtain ⟨hv, hd⟩ := hend p hp
        exact hne.elim (· hv) (· hd)
      rw [checkProofs_append, hreached, ok_bind, checkProofs,
        throwIf_of_not (by simp [hplan, hgoal]), ok_bind, throwIf_of_not hfresh, ok_bind,
        throwIf_of_not hjoin]
      rfl
    · intro p hp
      obtain rfl : last = p := Option.some.inj hp
      exact ⟨hto, hdigest⟩

theorem Chain.preservedFrom (h : Chain planId goalId version digest proofs)
    {entry : PreservedNodeDigest} (fuel v : Nat) (hv : v + fuel = version)
    (hlisted : ∀ w, v ≤ w → w < version → ∃ p ∈ proofs, p.fromVersion = w
      ∧ p.toVersion = w + 1 ∧ entry ∈ p.preservedNodeDigests) :
    preservedFrom proofs version entry fuel v = true := by
  induction fuel generalizing v with
  | zero =>
    rw [Plan.preservedFrom, beq_iff_eq]
    exact hv
  | succ fuel ih =>
    obtain ⟨p, hp, hfrom, hto, hentry⟩ := hlisted v (Nat.le_refl v) (by omega)
    have hfind : (proofs.find? fun p => p.fromVersion == v) = some p :=
      (find?_key_eq_some h.fromVersion_nodup).2 ⟨hp, hfrom⟩
    rw [Plan.preservedFrom, if_pos (by omega), hfind]
    dsimp only
    rw [Bool.and_eq_true, List.contains_iff_mem, hto]
    refine ⟨hentry, ih (v + 1) (by omega) ?_⟩
    intro w hw hlt
    exact hlisted w (by omega) hlt

end

-- ===== the invariant

/-- A node that was let run. -/
def PlanNodeState.started (s : PlanNodeState) : Prop :=
  s.status = .ready ∨ s.status = .running
    ∨ (s.status = .blocked ∧ s.lastExecutionDigest.truthy.isSome = true)
    ∨ s.status = .succeeded

/-- Every dependency of the node is done. -/
def DependenciesDone (states : List PlanNodeState) (node : PlanNode) : Prop :=
  ∀ id ∈ node.dependsOn, ∃ d, stateOf? states id = some d ∧ d.status = .succeeded

/-- The state of a node, by itself. -/
structure NodeSound (cfg : PlanConfig) (node : PlanNode) (s : PlanNodeState) : Prop where
  attempts : s.attempts ≤ node.maxAttempts
  execution : ∀ {d}, s.lastExecutionDigest.truthy = some d → IsDigest d
  receipt : ∀ {d}, s.verificationReceiptDigest.truthy = some d → s.status = .succeeded
    ∧ IsDigest d ∧ s.verifiedNodeDigest.truthy = some (digestPlan cfg (node.toJson cfg))
    ∧ node.verificationFactKeys ≠ []
  content : ∀ {d}, s.verifiedNodeDigest.truthy = some d → IsDigest d

/-- Every node has the timestamp of its last change. -/
def Timed (states : List PlanNodeState) : Prop :=
  ∀ s ∈ states, isIso s.lastUpdatedAt = true

def lineageOf (r : VerifiedPlanRuntime) (x : VerificationReceipt) (s : PlanNodeState)
    (executionDigest : String) : CompletionLineage :=
  { goalId := r.goal.id, planId := r.graph.planId, planVersion := x.planVersion,
    nodeId := x.nodeId, attempt := s.attempts, executionDigest }

/-- A stored receipt belongs to its node, and every revision since it was
given preserved the node. -/
structure ReceiptSound (cfg : PlanConfig) (r : VerifiedPlanRuntime)
    (x : VerificationReceipt) (node : PlanNode) (s : PlanNodeState) : Prop where
  hasNode : nodeOf? r.graph.nodes x.nodeId = some node
  hasState : stateOf? r.states x.nodeId = some s
  referenced : s.verificationReceiptDigest = .val x.digest
  bound : ∃ e, s.lastExecutionDigest.truthy = some e
    ∧ validateCompletionReceipt x (lineageOf r x s e) = .ok x
  version : x.planVersion ≤ r.graph.version
  preserved : ∀ v, x.planVersion ≤ v → v < r.graph.version →
    ∃ p ∈ r.revisionProofs, p.fromVersion = v ∧ p.toVersion = v + 1
      ∧ ⟨x.nodeId, digestPlan cfg (node.toJson cfg)⟩ ∈ p.preservedNodeDigests

structure PlanInv (cfg : PlanConfig) (r : VerifiedPlanRuntime) : Prop where
  goalId : r.goal.id ≠ "" ∧ Json.unitLength r.goal.id ≤ 256
  graph : Valid r.goal r.graph
  goalDigest : r.goalDigest = digestPlan cfg r.goal.toJson
  planDigest : r.planDigest = digestPlan cfg (r.graph.toJson cfg)
  exec : ExecInv r
  nodes : ForNodes (NodeSound cfg) r.graph r.states
  dependencies : ForNodes (fun node s => s.started → DependenciesDone r.states node)
    r.graph r.states
  verified : ForNodes (fun node s => s.status = .succeeded →
    node.verificationFactKeys ≠ [] → ∃ x ∈ r.receipts, x.nodeId = node.id
      ∧ s.verificationReceiptDigest = .val x.digest) r.graph r.states
  receipts : ∀ x ∈ r.receipts, ∃ node s, ReceiptSound cfg r x node s
  distinct : (r.receipts.map (·.digest)).Nodup
  decisions : ∀ d ∈ r.decisions, validateDecisionLineage cfg d = .ok d
    ∧ checkDecision r.goal r.graph r.planDigest d = .ok ()
  proofs : ∀ p ∈ r.revisionProofs, validateRevisionProof cfg p = .ok p
  chain : Chain r.graph.planId r.goal.id r.graph.version r.planDigest r.revisionProofs
  few : r.revisionProofs.length ≤ 10000

-- ===== the checks

theorem mapM_digestText {slot : Option String} (h : ∀ {d}, slot = some d → IsDigest d)
    (label : String) : slot.mapM (digestText · label) = .ok slot := by
  cases slot with
  | none => rfl
  | some d =>
    show (digestText d label >>= fun d => .ok (some d)) = _
    rw [digestText_eq_self (h rfl)]
    rfl

theorem Slot.truthy_val {text : String} (h : text ≠ "") : (Slot.val text).truthy = some text := by
  simp [Slot.truthy, Slot.get?, h]

section
variable {cfg : PlanConfig} {r : VerifiedPlanRuntime}

variable {seen : List String}

theorem NodeSound.check {nodes : List PlanNode} {node : PlanNode} {s : PlanNodeState}
    (h : NodeSound cfg node s) (hmax : node.maxAttempts ≤ 100)
    (hnode : nodeOf? nodes s.nodeId = some node) (htimed : isIso s.lastUpdatedAt = true)
    (hfresh : s.nodeId ∉ seen) : checkNodeState nodes seen s = .ok () := by
  have hattempts := h.attempts
  have hsafe : ¬ (maxSafeInteger < s.attempts ∨ node.maxAttempts < s.attempts) := by
    unfold maxSafeInteger
    omega
  have hiso : validIso s.lastUpdatedAt "node.lastUpdatedAt" = .ok s.lastUpdatedAt :=
    validIso_eq_ok.2 ⟨rfl, htimed⟩
  have hreceipt : ∀ {d}, s.verificationReceiptDigest.truthy = some d → IsDigest d :=
    fun hd => (h.receipt hd).2.1
  rw [checkNodeState, hnode]
  dsimp only
  rw [throwIf_of_not hfresh, ok_bind, throwIf_of_not hsafe, ok_bind, hiso, ok_bind,
    mapM_digestText h.execution, ok_bind, mapM_digestText hreceipt, ok_bind,
    mapM_digestText h.content, ok_bind, throwIf_of_not]
  intro hbad
  obtain ⟨d, hd⟩ := Option.isSome_iff_exists.1 hbad.1
  rw [(h.receipt hd).2.2.1] at hbad
  cases hbad.2

theorem checkNodeStates_ok {nodes : List PlanNode} {states : List PlanNodeState}
    (hnd : (states.map (·.nodeId)).Nodup) (hseen : ∀ s ∈ states, s.nodeId ∉ seen)
    (h : ∀ s ∈ states, ∀ seen, s.nodeId ∉ seen → checkNodeState nodes seen s = .ok ()) :
    checkNodeStates nodes seen states = .ok () := by
  induction states generalizing seen with
  | nil => rfl
  | cons s states ih =>
    obtain ⟨hout, hnd⟩ := List.nodup_cons.1 hnd
    rw [checkNodeStates, h s (List.mem_cons_self ..) seen (hseen s (List.mem_cons_self ..)),
      ok_bind]
    refine ih hnd ?_ fun x hx => h x (List.mem_cons_of_mem _ hx)
    intro x hx hin
    rcases List.mem_cons.1 hin with heq | hold
    · exact hout (List.mem_map.2 ⟨x, hx, heq⟩)
    · exact hseen x (List.mem_cons_of_mem _ hx) hold

theorem PlanInv.checkStates (h : PlanInv cfg r) (htimed : Timed r.states) :
    normalizeNodeStates r.graph r.states = .ok r.states := by
  have hlen : r.states.length = r.graph.nodes.length := by
    simpa using congrArg List.length h.exec.states.ids
  rw [normalizeNodeStates, throwIf_of_not (not_not.2 hlen), ok_bind,
    checkNodeStates_ok h.exec.states.states_nodup (fun _ _ => List.not_mem_nil)]
  · rfl
  · intro s hs seen hfresh
    obtain ⟨node, hnode, hid⟩ := h.exec.states.exists_node hs
    refine (h.nodes node hnode s hs hid).check (h.graph.attempts node hnode) ?_
      (htimed s hs) hfresh
    exact (nodeOf?_eq_some h.graph.nodup).2 ⟨hnode, hid.symm⟩

variable {x : VerificationReceipt}

theorem PlanInv.checkReceipt (h : PlanInv cfg r) (hx : x ∈ r.receipts) :
    r.checkReceipt cfg x = .ok () := by
  obtain ⟨node, s, hsound⟩ := h.receipts x hx
  obtain ⟨e, he, hvalid⟩ := hsound.bound
  obtain ⟨hmem, hsid⟩ := mem_of_stateOf? hsound.hasState
  obtain ⟨hnode, hnid⟩ := mem_of_nodeOf? hsound.hasNode
  have hdigest : IsDigest x.digest := (validateCompletionReceipt_ok hvalid).2.1
  have htruthy : s.verificationReceiptDigest.truthy = some x.digest := by
    rw [hsound.referenced]
    exact Slot.truthy_val hdigest.ne_empty
  have hcontent : s.verifiedNodeDigest.truthy = some (digestPlan cfg (node.toJson cfg)) :=
    ((h.nodes node hnode s hmem (hsid.trans hnid.symm)).receipt htruthy).2.2.1
  have hpreserved : r.isNodePreservedAcrossRevisions x.planVersion x.nodeId
      (digestPlan cfg (node.toJson cfg)) = true := by
    have hversion := hsound.version
    exact h.chain.preservedFrom _ _ (by omega) hsound.preserved
  have hget : ¬ s.verificationReceiptDigest.get? ≠ some x.digest := by
    rw [hsound.referenced]
    exact not_not.2 rfl
  rw [VerifiedPlanRuntime.checkReceipt, stateFor_eq_ok.2 hsound.hasState, ok_bind, he]
  dsimp only
  rw [throwIf_of_not hget, ok_bind, throwIf_of_not (Nat.not_lt.2 hsound.version), ok_bind]
  refine bind_eq_ok.2 ⟨x, hvalid, ?_⟩
  rw [node_eq_ok.2 hsound.hasNode, ok_bind, hcontent,
    mapM_digestText (fun hd => Option.some.inj hd ▸ isDigest_digestPlan cfg _), ok_bind,
    throwIf_of_not (not_not.2 rfl), ok_bind, throwIf_of_not]
  intro hbad
  rw [hpreserved] at hbad
  cases hbad.2

theorem checkReceipts_ok {xs : List VerificationReceipt} (hnd : (xs.map (·.digest)).Nodup)
    (hseen : ∀ x ∈ xs, x.digest ∉ seen) (h : ∀ x ∈ xs, r.checkReceipt cfg x = .ok ()) :
    r.checkReceipts cfg seen xs = .ok () := by
  induction xs generalizing seen with
  | nil => rfl
  | cons x xs ih =>
    obtain ⟨hout, hnd⟩ := List.nodup_cons.1 hnd
    rw [VerifiedPlanRuntime.checkReceipts,
      throwIf_of_not (hseen x (List.mem_cons_self ..)), ok_bind,
      h x (List.mem_cons_self ..), ok_bind]
    refine ih hnd ?_ fun y hy => h y (List.mem_cons_of_mem _ hy)
    intro y hy hin
    rcases List.mem_cons.1 hin with heq | hold
    · exact hout (List.mem_map.2 ⟨y, hy, heq⟩)
    · exact hseen y (List.mem_cons_of_mem _ hy) hold

theorem PlanInv.receipt_ne_empty (h : PlanInv cfg r) (hx : x ∈ r.receipts) : x.digest ≠ "" := by
  obtain ⟨node, s, hsound⟩ := h.receipts x hx
  obtain ⟨e, _, hvalid⟩ := hsound.bound
  exact (validateCompletionReceipt_ok hvalid).2.1.ne_empty

theorem PlanInv.succeeded_of_receipt (h : PlanInv cfg r) (hx : x ∈ r.receipts) {node : PlanNode}
    {s : PlanNodeState} (hsound : ReceiptSound cfg r x node s) : s.status = .succeeded := by
  obtain ⟨hmem, hsid⟩ := mem_of_stateOf? hsound.hasState
  obtain ⟨hnode, hnid⟩ := mem_of_nodeOf? hsound.hasNode
  have htruthy : s.verificationReceiptDigest.truthy = some x.digest := by
    rw [hsound.referenced]
    exact Slot.truthy_val (h.receipt_ne_empty hx)
  exact ((h.nodes node hnode s hmem (hsid.trans hnid.symm)).receipt htruthy).1

theorem PlanInv.checkVerifiedNode (h : PlanInv cfg r) {node : PlanNode}
    (hnode : node ∈ r.graph.nodes) : r.checkVerifiedNode cfg node = .ok () := by
  obtain ⟨s, hs⟩ := h.exec.states.exists_state hnode
  obtain ⟨hmem, hid⟩ := mem_of_stateOf? hs
  rw [VerifiedPlanRuntime.checkVerifiedNode, stateFor_eq_ok.2 hs, ok_bind]
  split
  · next hdone =>
    obtain ⟨x, hx, hxid, href⟩ := h.verified node hnode s hmem hid hdone.1 hdone.2
    have htruthy : s.verificationReceiptDigest.truthy = some x.digest := by
      rw [href]
      exact Slot.truthy_val (h.receipt_ne_empty hx)
    have hcontent := ((h.nodes node hnode s hmem hid).receipt htruthy).2.2.1
    have hthere : ¬ s.verificationReceiptDigest.truthy = none := by
      rw [htruthy]
      exact Option.some_ne_none _
    have hfound : ∃ receipt ∈ r.receipts,
        s.verificationReceiptDigest.get? = some receipt.digest ∧ receipt.nodeId = node.id :=
      ⟨x, hx, by rw [href]; rfl, hxid⟩
    rw [throwIf_of_not hthere, ok_bind, throwIf_of_not (not_not.2 hcontent), ok_bind,
      throwIf_of_not (not_not.2 hfound)]
  · rfl

theorem PlanInv.fromState_exportState (h : PlanInv cfg r) (htimed : Timed r.states) :
    fromState cfg r.exportState = .ok r := by
  have hgoal : IsDigest r.goalDigest := h.goalDigest ▸ isDigest_digestPlan cfg _
  have hplan : IsDigest r.planDigest := h.planDigest ▸ isDigest_digestPlan cfg _
  have hdecisions : r.decisions.mapM (validateDecisionLineage cfg) = .ok r.decisions :=
    mapM_eq_self fun d hd => (h.decisions d hd).1
  have hproofs : r.revisionProofs.mapM (validateRevisionProof cfg) = .ok r.revisionProofs :=
    mapM_eq_self h.proofs
  have hchain : r.validateRevisionProofChain = .ok () := by
    obtain ⟨reached, hreached, hend⟩ := h.chain.checkProofs_ok
    rw [VerifiedPlanRuntime.validateRevisionProofChain,
      throwIf_of_not (Nat.not_lt.2 h.few), ok_bind, hreached, ok_bind, throwIf_of_not]
    intro hbad
    obtain ⟨p, hp, hne⟩ := hbad
    obtain ⟨hv, hd⟩ := hend p hp
    exact hne.elim (· hv) (· hd)
  have hreceipts : r.validatePersistedReceipts cfg = .ok () := by
    rw [VerifiedPlanRuntime.validatePersistedReceipts,
      checkReceipts_ok h.distinct (fun _ _ => List.not_mem_nil) fun x hx => h.checkReceipt hx,
      ok_bind]
    exact forM_eq_ok.2 fun node hnode => h.checkVerifiedNode hnode
  have hbound : ¬ (r.goal.id ≠ r.goal.id ∨ r.graph.planId ≠ r.graph.planId
      ∨ r.graph.version ≠ r.graph.version) := by simp
  rw [fromState, VerifiedPlanRuntime.restore]
  refine bind_eq_ok.2 ⟨r.graph, h.graph.again, ?_⟩
  refine bind_eq_ok.2 ⟨(), throwIf_of_not hbound, ?_⟩
  refine bind_eq_ok.2 ⟨r.goalDigest, digestText_eq_self hgoal, ?_⟩
  refine bind_eq_ok.2 ⟨(), throwIf_of_not (not_not.2 h.goalDigest), ?_⟩
  refine bind_eq_ok.2 ⟨r.planDigest, digestText_eq_self hplan, ?_⟩
  refine bind_eq_ok.2 ⟨(), throwIf_of_not (not_not.2 h.planDigest), ?_⟩
  refine bind_eq_ok.2 ⟨r.states, h.checkStates htimed, ?_⟩
  refine bind_eq_ok.2 ⟨r.decisions, hdecisions, ?_⟩
  dsimp only [VerifiedPlanRuntime.exportState]
  rw [← h.planDigest, ← h.goalDigest]
  refine bind_eq_ok.2 ⟨(), forM_eq_ok.2 fun d hd => (h.decisions d hd).2, ?_⟩
  refine bind_eq_ok.2 ⟨r.revisionProofs, hproofs, ?_⟩
  show (r.validateRevisionProofChain >>= fun _ => r.validatePersistedReceipts cfg >>= fun _ =>
    .ok r) = .ok r
  rw [hchain, ok_bind, hreceipts]
  rfl

end

/-
Every operation keeps a plan runtime sound. The operations other than
`revise` leave a node that has succeeded as it is, so what they do to the
other nodes is all there is to check (`PlanInv.update`). `revise` keeps the
state of a node only outside the closure of the changed nodes, where the
node and everything it depends on have the content they had.
-/

-- ===== updates

theorem DependenciesDone.map {states : List PlanNodeState} {node : PlanNode}
    {f : PlanNodeState → PlanNodeState} (h : DependenciesDone states node)
    (hid : ∀ s, (f s).nodeId = s.nodeId) (hkeep : ∀ s ∈ states, s.status = .succeeded → f s = s) :
    DependenciesDone (states.map f) node := by
  intro id hin
  obtain ⟨d, hd, hdone⟩ := h id hin
  refine ⟨d, ?_, hdone⟩
  rw [stateOf?_map hid, hd, Option.map_some, hkeep d (mem_of_stateOf? hd).1 hdone]

theorem stateOf?_replaced {states : List PlanNodeState} {id : String} {s next : PlanNodeState}
    (hs : stateOf? states id = some s) (hid : next.nodeId = s.nodeId) :
    stateOf? (states.map (replacing next)) id = some next := by
  rw [stateOf?_map (replacing_nodeId next), hs, Option.map_some, replacing, if_pos hid.symm]

theorem NodeSound.restatus {cfg : PlanConfig} {node : PlanNode} {s : PlanNodeState}
    (h : NodeSound cfg node s) (hne : s.status ≠ .succeeded) (now : String)
    (status : PlanNodeStatus) (reason : Slot String) :
    NodeSound cfg node { s with status, lastReason := reason, lastUpdatedAt := now } :=
  ⟨h.attempts, h.execution, fun hd => absurd (h.receipt hd).1 hne, h.content⟩

section
variable {cfg : PlanConfig} {r r' : VerifiedPlanRuntime}

theorem PlanInv.update (h : PlanInv cfg r) {f : PlanNodeState → PlanNodeState}
    (added : List VerificationReceipt) (hid : ∀ s, (f s).nodeId = s.nodeId)
    (hexec : ExecInv { r with states := r.states.map f, receipts := r.receipts ++ added })
    (hkeep : ∀ s ∈ r.states, s.status = .succeeded → f s = s)
    (hnew : ∀ node ∈ r.graph.nodes, ∀ s ∈ r.states, s.nodeId = node.id →
      s.status ≠ .succeeded → NodeSound cfg node (f s)
        ∧ ((f s).started → DependenciesDone r.states node)
        ∧ ((f s).status = .succeeded → node.verificationFactKeys ≠ [] →
          ∃ x ∈ added, x.nodeId = node.id ∧ (f s).verificationReceiptDigest = .val x.digest))
    (hadded : ∀ x ∈ added, ∃ node s, ReceiptSound cfg
      { r with states := r.states.map f, receipts := r.receipts ++ added } x node s)
    (hdistinct : ((r.receipts ++ added).map (·.digest)).Nodup) :
    PlanInv cfg { r with states := r.states.map f, receipts := r.receipts ++ added } where
  goalId := h.goalId
  graph := h.graph
  goalDigest := h.goalDigest
  planDigest := h.planDigest
  exec := hexec
  nodes := by
    refine h.nodes.map hid ?_
    intro node hnode s hs hsid hsound
    by_cases hdone : s.status = .succeeded
    · rwa [hkeep s hs hdone]
    · exact (hnew node hnode s hs hsid hdone).1
  dependencies := by
    refine ForNodes.map h.dependencies hid ?_
    intro node hnode s hs hsid hdeps hstarted
    by_cases hdone : s.status = .succeeded
    · rw [hkeep s hs hdone] at hstarted
      exact (hdeps hstarted).map hid hkeep
    · exact ((hnew node hnode s hs hsid hdone).2.1 hstarted).map hid hkeep
  verified := by
    refine ForNodes.map h.verified hid ?_
    intro node hnode s hs hsid hverified hstatus hkeys
    by_cases hdone : s.status = .succeeded
    · rw [hkeep s hs hdone] at hstatus ⊢
      obtain ⟨x, hx, hrest⟩ := hverified hstatus hkeys
      exact ⟨x, List.mem_append_left _ hx, hrest⟩
    · obtain ⟨x, hx, hrest⟩ := (hnew node hnode s hs hsid hdone).2.2 hstatus hkeys
      exact ⟨x, List.mem_append_right _ hx, hrest⟩
  receipts := by
    intro x hx
    rcases List.mem_append.1 hx with hold | hnewx
    · obtain ⟨node, s, hsound⟩ := h.receipts x hold
      have hdone := h.succeeded_of_receipt hold hsound
      refine ⟨node, s, hsound.hasNode, ?_, hsound.referenced, hsound.bound, hsound.version,
        hsound.preserved⟩
      rw [stateOf?_map hid, hsound.hasState, Option.map_some,
        hkeep s (mem_of_stateOf? hsound.hasState).1 hdone]
    · exact hadded x hnewx
  distinct := hdistinct
  decisions := h.decisions
  proofs := h.proofs
  chain := h.chain
  few := h.few

theorem PlanInv.mapStates (h : PlanInv cfg r) {f : PlanNodeState → PlanNodeState}
    (hid : ∀ s, (f s).nodeId = s.nodeId) (hexec : ExecInv { r with states := r.states.map f })
    (hkeep : ∀ s ∈ r.states, s.status = .succeeded → f s = s)
    (hnew : ∀ node ∈ r.graph.nodes, ∀ s ∈ r.states, s.nodeId = node.id →
      s.status ≠ .succeeded → NodeSound cfg node (f s)
        ∧ ((f s).started → DependenciesDone r.states node)
        ∧ ((f s).status = .succeeded → node.verificationFactKeys = [])) :
    PlanInv cfg { r with states := r.states.map f } := by
  have hupdate := h.update (f := f) [] hid (by rwa [List.append_nil]) hkeep ?_
    (fun x hx => nomatch hx) (by rw [List.append_nil]; exact h.distinct)
  · rwa [List.append_nil] at hupdate
  · intro node hnode s hs hsid hne
    obtain ⟨hsound, hdeps, hkeys⟩ := hnew node hnode s hs hsid hne
    exact ⟨hsound, hdeps, fun hdone hsome => absurd (hkeys hdone) hsome⟩

variable {s : PlanNodeState}

theorem PlanInv.state_eq (h : PlanInv cfg r) {t : PlanNodeState} (hs : s ∈ r.states)
    (ht : t ∈ r.states) (hid : s.nodeId = t.nodeId) : s = t :=
  List.inj_on_of_nodup_map h.exec.states.states_nodup hs ht hid

theorem PlanInv.node_eq (h : PlanInv cfg r) {n m : PlanNode} (hn : n ∈ r.graph.nodes)
    (hm : m ∈ r.graph.nodes) (hid : n.id = m.id) : n = m :=
  List.inj_on_of_nodup_map h.graph.nodup hn hm hid

theorem PlanInv.replace (h : PlanInv cfg r) {id : String} {node : PlanNode}
    {next : PlanNodeState} (hnode : nodeOf? r.graph.nodes id = some node)
    (hs : stateOf? r.states id = some s) (hne : s.status ≠ .succeeded)
    (hid : next.nodeId = s.nodeId) (hexec : ExecInv (r.replaceState next))
    (hsound : NodeSound cfg node next) (hdeps : next.started → DependenciesDone r.states node)
    (hkeys : next.status = .succeeded → node.verificationFactKeys = []) :
    PlanInv cfg (r.replaceState next) := by
  obtain ⟨hmem, hsid⟩ := mem_of_stateOf? hs
  obtain ⟨hnmem, hnid⟩ := mem_of_nodeOf? hnode
  refine h.mapStates (replacing_nodeId next) hexec ?_ ?_
  · intro t ht hdone
    rw [if_neg]
    intro heq
    exact hne (h.state_eq ht hmem (heq.trans hid) ▸ hdone)
  · intro n hn t ht htid htne
    split
    · next heq =>
      have hsame : n = node :=
        h.node_eq hn hnmem (by rw [← htid, heq, hid, hsid, hnid])
      rw [hsame]
      exact ⟨hsound, hdeps, hkeys⟩
    · exact ⟨h.nodes n hn t ht htid, h.dependencies n hn t ht htid, fun hdone => absurd hdone htne⟩

-- ===== operations

theorem not_started (h : s.status = .invalidated ∨ s.status = .failed) : ¬ s.started := by
  rcases h with h | h
  · simp [PlanNodeState.started, h]
  · simp [PlanNodeState.started, h]

variable {now : String}

theorem invalidateState_of_succeeded {invalidated : List String} (h : s.status = .succeeded) :
    invalidateState invalidated now s = s := by
  rw [invalidateState, if_neg]
  exact fun hc => hc.2.1 h

theorem refreshState_of_succeeded {ready : List String} (h : s.status = .succeeded) :
    refreshState ready now s = s := by
  rw [refreshState, if_neg (fun hc => hc.2.1 h), if_neg]
  intro hc
  rw [h] at hc
  cases hc.1

theorem PlanInv.invalidate (h : PlanInv cfg r) (invalidated : List String) (now : String) :
    PlanInv cfg { r with states := r.states.map (invalidateState invalidated now) } := by
  refine h.mapStates (invalidateState_nodeId now · invalidated)
    (h.exec.invalidate invalidated now) (fun s _ hdone => invalidateState_of_succeeded hdone) ?_
  intro node hnode s hs hid hne
  unfold invalidateState
  split
  · exact ⟨(h.nodes node hnode s hs hid).restatus hne now _ _,
      fun hstarted => absurd hstarted (not_started (.inl rfl)), fun hdone => nomatch hdone⟩
  · exact ⟨h.nodes node hnode s hs hid, h.dependencies node hnode s hs hid,
      fun hdone => absurd hdone hne⟩

theorem PlanInv.bindBeliefs (h : PlanInv cfg r) {beliefs : List BeliefView}
    (hok : r.bindBeliefs beliefs now = .ok r') : PlanInv cfg r' := by
  have hexec := h.exec.bindBeliefs hok
  obtain ⟨-, invalidated, ready, normalized, rfl, hready⟩ := bindBeliefs_ok hok
  have hmid := h.invalidate invalidated now
  refine hmid.mapStates (refreshState_nodeId now · ready) hexec
    (fun s _ hdone => refreshState_of_succeeded hdone) ?_
  intro node hnode s hs hid hne
  unfold refreshState
  split
  · next hin =>
    refine ⟨(hmid.nodes node hnode s hs hid).restatus hne now _ _, ?_, fun hdone => nomatch hdone⟩
    intro _
    obtain ⟨node', hnode', hid', hisReady⟩ := (hready s.nodeId).1 hin.1
    obtain rfl : node' = node := h.node_eq hnode' hnode (hid'.trans hid)
    obtain ⟨_, _, _, _, hdeps, _⟩ := isReady_iff.1 hisReady
    exact hdeps
  · split
    · next hwas =>
      refine ⟨(hmid.nodes node hnode s hs hid).restatus hne now _ _, ?_, fun hdone => nomatch hdone⟩
      intro _
      exact hmid.dependencies node hnode s hs hid (.inl hwas.1)
    · exact ⟨hmid.nodes node hnode s hs hid, hmid.dependencies node hnode s hs hid,
        fun hdone => absurd hdone hne⟩

variable {nodeId : String}

theorem PlanInv.startNode (h : PlanInv cfg r) (hok : r.startNode nodeId now = .ok r') :
    PlanInv cfg r' := by
  have hexec := h.exec.startNode hok
  obtain ⟨-, node, s, hnode, hs, hready, hattempts, rfl⟩ := startNode_ok hok
  obtain ⟨hmem, hsid⟩ := mem_of_stateOf? hs
  obtain ⟨hnmem, hnid⟩ := mem_of_nodeOf? hnode
  refine h.replace hnode hs (by rw [hready]; decide) rfl hexec ?_ ?_ (fun hdone => nomatch hdone)
  · exact ⟨hattempts, fun hd => (nomatch hd), fun hd => (nomatch hd), fun hd => (nomatch hd)⟩
  · intro _
    exact h.dependencies node hnmem s hmem (hsid.trans hnid.symm) (.inl hready)

theorem isDigest_of_truthy {text d : String} (htext : IsDigest text)
    (hd : (Slot.val text).truthy = some d) : IsDigest d := by
  rw [Slot.truthy_val htext.ne_empty] at hd
  exact Option.some.inj hd ▸ htext

theorem PlanInv.failNode (h : PlanInv cfg r) {id : String} {node : PlanNode}
    (hnode : nodeOf? r.graph.nodes id = some node) (hs : stateOf? r.states id = some s)
    (hne : s.status ≠ .succeeded) {digest : String} (hdigest : IsDigest digest)
    (reason now : String) :
    PlanInv cfg (r.replaceState (VerifiedPlanRuntime.failedState s digest reason now)) := by
  obtain ⟨hmem, hsid⟩ := mem_of_stateOf? hs
  obtain ⟨hnmem, hnid⟩ := mem_of_nodeOf? hnode
  have hsound := h.nodes node hnmem s hmem (hsid.trans hnid.symm)
  refine h.replace hnode hs hne rfl (h.exec.failNode s digest reason now) ?_
    (fun hstarted => absurd hstarted (not_started (.inr rfl))) (fun hdone => nomatch hdone)
  exact ⟨hsound.attempts, isDigest_of_truthy hdigest, fun hd => (nomatch hd),
    fun hd => (nomatch hd)⟩

theorem PlanInv.repair (h : PlanInv cfg r) {failed : PlanNodeState} (invalidated : List String)
    (hmem : failed ∈ r.states) (hfailed : failed.status = .failed) (hexec : ExecInv { r with
      states := r.states.map (VerifiedPlanRuntime.repairState failed invalidated now) }) :
    PlanInv cfg { r with
      states := r.states.map (VerifiedPlanRuntime.repairState failed invalidated now) } := by
  refine h.mapStates (repairState_nodeId now · failed invalidated) hexec ?_ ?_
  · intro s hs hdone
    unfold VerifiedPlanRuntime.repairState
    split
    · next heq => exact h.state_eq hmem hs heq.symm
    · rw [if_neg]
      exact fun hc => hc.2 hdone
  · intro node hnode s hs hid hne
    have hsound := h.nodes node hnode s hs hid
    unfold VerifiedPlanRuntime.repairState
    split
    · next heq =>
      obtain rfl : s = failed := h.state_eq hs hmem heq
      exact ⟨hsound, fun hstarted => absurd hstarted (not_started (.inr hfailed)),
        fun hdone => absurd hdone hne⟩
    · split
      · exact ⟨hsound.restatus hne now _ _,
          fun hstarted => absurd hstarted (not_started (.inl rfl)), fun hdone => nomatch hdone⟩
      · exact ⟨hsound, h.dependencies node hnode s hs hid, fun hdone => absurd hdone hne⟩

theorem PlanInv.recordExecution (h : PlanInv cfg r) {input : ExecutionObservation}
    (hok : r.recordExecution cfg nodeId input now = .ok r') : PlanInv cfg r' := by
  have hexec := h.exec.recordExecution hok
  obtain ⟨-, node, s, observation, hnode, hs, hrunning, -, hcases⟩ := recordExecution_ok hok
  obtain ⟨hmem, hsid⟩ := mem_of_stateOf? hs
  obtain ⟨hnmem, hnid⟩ := mem_of_nodeOf? hnode
  have hsound := h.nodes node hnmem s hmem (hsid.trans hnid.symm)
  have hne : s.status ≠ .succeeded := by
    rw [hrunning]
    decide
  rcases hcases with ⟨-, digest, invalidated, -, hdigest, rfl⟩ | ⟨haccepted, rfl⟩
  · have hexecuted : IsDigest digest := by
      rw [hdigest]
      exact isDigest_digestPlan cfg _
    have hfailed := h.failNode hnode hs hne hexecuted
      (assessNodeOutcome node observation).reason now
    exact hfailed.repair invalidated (List.mem_map.2 ⟨s, hmem, if_pos rfl⟩) rfl hexec
  · refine h.replace hnode hs hne rfl hexec ?_ ?_ ?_
    · exact ⟨hsound.attempts, isDigest_of_truthy (isDigest_digestPlan cfg _),
        fun hd => absurd (hsound.receipt hd).1 hne, hsound.content⟩
    · intro _
      exact h.dependencies node hnmem s hmem (hsid.trans hnid.symm) (.inr (.inl hrunning))
    · intro hdone
      by_contra hkeys
      have hverify := (requiresVerification_iff haccepted).2 hkeys
      rw [VerifiedPlanRuntime.acceptedState, hverify] at hdone
      cases hdone

theorem PlanInv.markVerifiedComplete (h : PlanInv cfg r) {receipt : VerificationReceipt}
    (hok : r.markVerifiedComplete cfg nodeId receipt now = .ok r') : PlanInv cfg r' := by
  have hexec := h.exec.markVerifiedComplete hok
  obtain ⟨-, node, s, e, x, hnode, hs, hstatus, hkeys, he, hvalid, hcases⟩ :=
    markVerifiedComplete_ok hok
  obtain ⟨hmem, hsid⟩ := mem_of_stateOf? hs
  obtain ⟨hnmem, hnid⟩ := mem_of_nodeOf? hnode
  have hsn : s.nodeId = node.id := hsid.trans hnid.symm
  have hsound := h.nodes node hnmem s hmem hsn
  obtain ⟨hagain, hdigest, -, -, hversion, hxid, -, -⟩ := validateCompletionReceipt_ok hvalid
  have hne : s.status ≠ .succeeded := by
    rcases hstatus with heq | heq
    · rw [heq]
      decide
    · rw [heq]
      decide
  rcases hcases with ⟨hfresh, rfl⟩ | ⟨⟨y, hfind, hsame⟩, -⟩
  · refine h.update [x] (replacing_nodeId _) hexec ?_ ?_ ?_ ?_
    · intro t ht hdone
      rw [if_neg]
      intro heq
      exact hne (h.state_eq ht hmem heq ▸ hdone)
    · intro n hn t ht htid htne
      split
      · next heq =>
        obtain rfl : n = node := h.node_eq hn hnmem (htid.symm.trans (heq.trans hsn))
        refine ⟨⟨hsound.attempts, hsound.execution, ?_,
          isDigest_of_truthy (isDigest_digestPlan cfg _)⟩, ?_, ?_⟩
        · intro d hd
          exact ⟨rfl, isDigest_of_truthy hdigest hd,
            Slot.truthy_val (isDigest_digestPlan cfg _).ne_empty, hkeys⟩
        · intro _
          refine h.dependencies n hnmem s hmem hsn ?_
          rcases hstatus with hblocked | hrunning
          · exact .inr (.inr (.inl ⟨hblocked, by rw [he]; rfl⟩))
          · exact .inr (.inl hrunning)
        · intro _ _
          exact ⟨x, List.mem_singleton.2 rfl, hxid.trans hnid.symm, rfl⟩
      · exact ⟨h.nodes n hn t ht htid, h.dependencies n hn t ht htid,
          fun hdone => absurd hdone htne⟩
    · intro y hy
      obtain rfl : y = x := List.mem_singleton.1 hy
      refine ⟨node, VerifiedPlanRuntime.verifiedState s y.digest
        (digestPlan cfg (node.toJson cfg)) now, ?_, ?_, rfl, ⟨e, he, ?_⟩,
        Nat.le_of_eq hversion, ?_⟩
      · exact hxid ▸ hnode
      · rw [hxid]
        exact stateOf?_replaced hs rfl
      · rw [lineageOf, hversion, hxid]
        exact hagain
      · intro v hle hlt
        have heq : y.planVersion = r.graph.version := hversion
        have hlt' : v < r.graph.version := hlt
        omega
    · rw [List.map_append, List.nodup_append]
      refine ⟨h.distinct, List.nodup_singleton _, ?_⟩
      intro d hd d' hd'
      obtain ⟨y, hy, rfl⟩ := List.mem_map.1 hd
      rw [List.map_singleton, List.mem_singleton] at hd'
      rw [hd']
      exact by simpa using List.find?_eq_none.1 hfresh y hy
  · -- A receipt with this text is of this node, which then has succeeded.
    have hy : y ∈ r.receipts := List.mem_of_find?_eq_some hfind
    obtain ⟨node', s', hsound'⟩ := h.receipts y hy
    have hyid : y.nodeId = nodeId := (nodeId_eq_of_canonicalJson_eq hsame).trans hxid
    have hstate := hsound'.hasState
    rw [hyid, hs] at hstate
    obtain rfl : s = s' := Option.some.inj hstate
    exact absurd (h.succeeded_of_receipt hy hsound') hne

theorem appendDecision_ok {input : PlanDecision} (h : r.appendDecision cfg input = .ok r') :
    r' = r ∨ ∃ decision dropped, validateDecisionLineage cfg decision = .ok decision
    ∧ checkDecision r.goal r.graph r.planDigest decision = .ok ()
    ∧ r' = { r with decisions := (r.decisions ++ [decision]).drop dropped } := by
  rw [VerifiedPlanRuntime.appendDecision] at h
  obtain ⟨decision, hdecision, h⟩ := bind_eq_ok.1 h
  obtain ⟨_, hbound, h⟩ := bind_eq_ok.1 h
  obtain ⟨_, hknown, h⟩ := bind_eq_ok.1 h
  split at h
  · exact .inl (Except.ok.inj h).symm
  · refine .inr ⟨decision, _, validateDecisionLineage_again hdecision, ?_, (Except.ok.inj h).symm⟩
    rw [checkDecision, throwIf_of_not (throwIf_eq_ok.1 hbound), ok_bind,
      throwIf_of_not (throwIf_eq_ok.1 hknown)]

theorem PlanInv.appendDecision (h : PlanInv cfg r) {input : PlanDecision}
    (hok : r.appendDecision cfg input = .ok r') : PlanInv cfg r' := by
  rcases appendDecision_ok hok with rfl | ⟨decision, dropped, hvalid, hcheck, rfl⟩
  · exact h
  · refine { h with exec := ⟨h.exec.states, h.exec.waits⟩, receipts := ?_, decisions := ?_ }
    · intro x hx
      obtain ⟨node, s, hsound⟩ := h.receipts x hx
      exact ⟨node, s, ⟨hsound.hasNode, hsound.hasState, hsound.referenced, hsound.bound,
        hsound.version, hsound.preserved⟩⟩
    · intro d hd
      rcases List.mem_append.1 (List.mem_of_mem_drop hd) with hold | hnew
      · exact h.decisions d hold
      · rw [List.mem_singleton.1 hnew]
        exact ⟨hvalid, hcheck⟩

end

end OperatorRuntime.Plan
