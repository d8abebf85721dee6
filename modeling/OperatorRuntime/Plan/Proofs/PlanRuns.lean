/-
The runs of a plan runtime. From a compiled goal and a valid graph, along
every run of the six operations: a node that was let run has its
dependencies done, a verified node has its one receipt, a node that
succeeded stays so until a revision resets it, and the exported state is
taken back as it is. The clock of `bindBeliefs` is stored unchecked, and
with one that is no timestamp the last of these fails
(`bindBeliefs_stores_its_clock`); the other operations check theirs.
-/
import OperatorRuntime.Plan.Proofs.Revision

namespace OperatorRuntime.Plan

open Lib

-- ===== steps

/-- The clock `bindBeliefs` is given is a timestamp. -/
def Timely : PlanOperation → Prop
  | .bindBeliefs _ now => isIso now = true
  | _ => True

/-- SHA-256 tells apart the nodes a revision compares. -/
def Apart (cfg : PlanConfig) (r : VerifiedPlanRuntime) : PlanOperation → Prop
  | .revise nextGraph _ => ∀ next, validatePlanGraph r.goal nextGraph = .ok next →
      NodesApart cfg r.graph next
  | _ => True

section
variable {cfg : PlanConfig} {r r' : VerifiedPlanRuntime} {op : PlanOperation}

variable {goal : CompiledGoal} {graph : PlanGraph}

theorem few_of_restore {state : RuntimeState}
    (hproofs : state.revisionProofs.mapM (validateRevisionProof cfg) = .ok state.revisionProofs)
    (h : VerifiedPlanRuntime.restore cfg goal graph state = .ok r') :
    state.revisionProofs.length ≤ 10000 := by
  rw [VerifiedPlanRuntime.restore] at h
  iterate 9 obtain ⟨_, _, h⟩ := bind_eq_ok.1 h
  rw [hproofs, ok_bind] at h
  obtain ⟨_, hchain, _⟩ := bind_eq_ok.1 h
  rw [VerifiedPlanRuntime.validateRevisionProofChain] at hchain
  obtain ⟨_, hlong, _⟩ := bind_eq_ok.1 hchain
  exact Nat.not_lt.1 (throwIf_eq_ok.1 hlong)

variable {states : List PlanNodeState}

theorem timed_of_checkNodeStates {nodes : List PlanNode} {seen : List String} {u : Unit}
    (h : checkNodeStates nodes seen states = .ok u) : Timed states := by
  induction states generalizing seen with
  | nil => exact fun s hs => nomatch hs
  | cons first states ih =>
    rw [checkNodeStates] at h
    obtain ⟨_, hfirst, hrest⟩ := bind_eq_ok.1 h
    intro s hs
    rcases List.mem_cons.1 hs with rfl | hin
    · rw [checkNodeState] at hfirst
      split at hfirst
      · cases hfirst
      · obtain ⟨_, _, hfirst⟩ := bind_eq_ok.1 hfirst
        obtain ⟨_, _, hfirst⟩ := bind_eq_ok.1 hfirst
        obtain ⟨_, hiso, _⟩ := bind_eq_ok.1 hfirst
        exact (validIso_eq_ok.1 hiso).2
    · exact ih hrest s hin

theorem timed_of_restore {cfg : PlanConfig} {state : RuntimeState} {r : VerifiedPlanRuntime}
    (h : VerifiedPlanRuntime.restore cfg goal graph state = .ok r) : Timed state.nodeStates := by
  rw [VerifiedPlanRuntime.restore] at h
  iterate 6 obtain ⟨_, _, h⟩ := bind_eq_ok.1 h
  obtain ⟨states, hstates, _⟩ := bind_eq_ok.1 h
  rw [normalizeNodeStates] at hstates
  obtain ⟨_, _, hstates⟩ := bind_eq_ok.1 hstates
  obtain ⟨_, hchecks, _⟩ := bind_eq_ok.1 hstates
  exact timed_of_checkNodeStates hchecks

variable {now : String}

theorem PlanInv.revise_ok (h : PlanInv cfg r) {nextGraph : PlanGraph}
    (hapart : Apart cfg r (.revise nextGraph now)) (hok : r.revise cfg nextGraph now = .ok r') :
    ∃ revision reset, Revised cfg r.goal r.graph r.states now revision reset
    ∧ NodesApart cfg r.graph revision.graph ∧ r.revisionProofs.length < 10000
    ∧ r' = revisedOf cfg r revision := by
  rw [VerifiedPlanRuntime.revise] at hok
  obtain ⟨revision, hrevision, hok⟩ := bind_eq_ok.1 hok
  obtain ⟨hnext, reset, hrev⟩ := revisePlan_ok hrevision
  have hnodes := hapart revision.graph hnext
  have hproofs : (r.revisedRuntime cfg revision).revisionProofs.mapM
      (validateRevisionProof cfg) = .ok (r.revisedRuntime cfg revision).revisionProofs := by
    refine mapM_eq_self ?_
    intro p hp
    rcases List.mem_append.1 hp with hold | hnew
    · exact h.proofs p hold
    · rw [List.mem_singleton.1 hnew]
      exact hrev.proofValid
  have hlen : (r.revisionProofs ++ [revision.proof]).length ≤ 10000 :=
    few_of_restore hproofs hok
  rw [List.length_append, List.length_singleton] at hlen
  have hfew : r.revisionProofs.length < 10000 := by omega
  rw [h.restore_revised hrev hnodes hfew (timed_of_restore hok)] at hok
  exact ⟨revision, reset, hrev, hnodes, hfew, (Except.ok.inj hok).symm⟩

/-- One operation that succeeds, by its own lemma. -/
theorem PlanInv.run (h : PlanInv cfg r) (hapart : Apart cfg r op)
    (hok : op.run cfg r = .ok r') : PlanInv cfg r' := by
  cases op with
  | bindBeliefs beliefs now => exact h.bindBeliefs hok
  | startNode nodeId now => exact h.startNode hok
  | recordExecution nodeId observation now => exact h.recordExecution hok
  | markVerifiedComplete nodeId receipt now => exact h.markVerifiedComplete hok
  | appendDecision decision => exact h.appendDecision hok
  | revise nextGraph now =>
    obtain ⟨revision, reset, hrev, hnodes, hfew, rfl⟩ := h.revise_ok hapart hok
    exact h.revised hrev hnodes hfew

/-- One call; a runtime it throws on stays as it is. -/
theorem PlanInv.step (h : PlanInv cfg r) (hapart : Apart cfg r op) : PlanInv cfg (r.step cfg op) := by
  cases hrun : op.run cfg r with
  | error e => rwa [step_of_error hrun]
  | ok r' =>
    rw [step_of_ok hrun]
    exact h.run hapart hrun

theorem PlanInv.create {draft : GoalDraft} (hgoal : compileGoal draft = .ok goal)
    (hok : VerifiedPlanRuntime.create cfg goal graph now = .ok r) : PlanInv cfg r := by
  have hexec := ExecInv.create hok
  rw [VerifiedPlanRuntime.create] at hok
  obtain ⟨g, hgraph, hok⟩ := bind_eq_ok.1 hok
  cases hok
  have hstate : ∀ node ∈ g.nodes, ∀ s ∈ initializeNodeStates g now, s.nodeId = node.id →
      s = freshState now node := by
    intro node hnode s hs hid
    rw [initializeNodeStates_eq] at hs
    obtain ⟨other, hother, rfl⟩ := List.mem_map.1 hs
    exact congrArg (freshState now)
      (List.inj_on_of_nodup_map hexec.states.nodup hother hnode hid)
  exact
    { goalId := compileGoal_id hgoal
      graph := valid_of_validatePlanGraph hgraph
      goalDigest := rfl
      planDigest := rfl
      exec := hexec
      nodes := by
        intro node hnode s hs hid
        rw [hstate node hnode s hs hid]
        exact freshState_sound cfg now node
      dependencies := by
        intro node hnode s hs hid hstarted
        rw [hstate node hnode s hs hid] at hstarted
        intro dep hdep
        rw [dependsOn_of_freshState_started hstarted] at hdep
        cases hdep
      verified := by
        intro node hnode s hs hid hdone
        rw [hstate node hnode s hs hid] at hdone
        exact absurd hdone (freshState_not_succeeded now node)
      receipts := fun _ hx => by cases hx
      distinct := List.nodup_nil
      decisions := fun _ hd => by cases hd
      proofs := fun _ hp => by cases hp
      chain := Chain.nil
      few := Nat.zero_le _ }

-- ===== timestamps

theorem Timed.map {f : PlanNodeState → PlanNodeState} (h : Timed states)
    (hf : ∀ s, isIso s.lastUpdatedAt = true →
      isIso (f s).lastUpdatedAt = true) : Timed (states.map f) := by
  intro s hs
  obtain ⟨t, ht, rfl⟩ := List.mem_map.1 hs
  exact hf t (h t ht)

theorem Timed.replace (h : Timed states) {next : PlanNodeState}
    (hnext : isIso next.lastUpdatedAt = true) : Timed (states.map (replacing next)) := by
  refine h.map ?_
  intro s hs
  unfold replacing
  split
  · exact hnext
  · exact hs

/-- Times stay timestamps where the operation is given one. -/
theorem PlanInv.timed_run (h : PlanInv cfg r) (htimed : Timed r.states)
    (htimely : Timely op) (hapart : Apart cfg r op) (hok : op.run cfg r = .ok r') :
    Timed r'.states := by
  cases op with
  | bindBeliefs beliefs now =>
    obtain ⟨-, invalidated, ready, normalized, rfl, -⟩ := bindBeliefs_ok hok
    refine Timed.map (htimed.map ?_) ?_
    · intro s hs
      unfold invalidateState
      split
      · exact htimely
      · exact hs
    · intro s hs
      unfold refreshState
      split
      · exact htimely
      · split
        · exact htimely
        · exact hs
  | startNode nodeId now =>
    obtain ⟨hnow, node, s, -, -, -, -, rfl⟩ := startNode_ok hok
    exact htimed.replace hnow
  | recordExecution nodeId observation now =>
    obtain ⟨hnow, node, s, normalized, -, -, -, -, hcases⟩ := recordExecution_ok hok
    rcases hcases with ⟨-, digest, invalidated, -, -, rfl⟩ | ⟨-, rfl⟩
    · refine Timed.map (htimed.replace hnow) ?_
      intro s hs
      unfold VerifiedPlanRuntime.repairState
      split
      · exact hnow
      · split
        · exact hnow
        · exact hs
    · exact htimed.replace hnow
  | markVerifiedComplete nodeId receipt now =>
    obtain ⟨hnow, node, s, _, _, -, -, -, -, -, -, hcases⟩ := markVerifiedComplete_ok hok
    rcases hcases with ⟨-, rfl⟩ | ⟨-, rfl⟩
    · exact htimed.replace hnow
    · exact htimed.replace hnow
  | appendDecision decision =>
    rcases appendDecision_ok hok with rfl | ⟨_, _, -, -, rfl⟩
    · exact htimed
    · exact htimed
  | revise nextGraph now =>
    obtain ⟨revision, reset, hrev, -, -, rfl⟩ := h.revise_ok hapart hok
    exact hrev.timed htimed

theorem PlanInv.timed_step (h : PlanInv cfg r) (htimed : Timed r.states)
    (htimely : Timely op) (hapart : Apart cfg r op) : Timed (r.step cfg op).states := by
  cases hrun : op.run cfg r with
  | error e => rwa [step_of_error hrun]
  | ok r' =>
    rw [step_of_ok hrun]
    exact h.timed_run htimed htimely hapart hrun

theorem timed_create (hok : VerifiedPlanRuntime.create cfg goal graph now = .ok r)
    (hnow : isIso now = true) : Timed r.states := by
  rw [VerifiedPlanRuntime.create] at hok
  obtain ⟨g, _, hok⟩ := bind_eq_ok.1 hok
  cases hok
  intro s hs
  obtain ⟨node, _, rfl⟩ := List.mem_map.1 hs
  exact hnow

-- === nodes that succeeded

variable {s : PlanNodeState}

theorem stateOf?_map_of_eq {f : PlanNodeState → PlanNodeState}
    (hf : ∀ s, (f s).nodeId = s.nodeId) {id : String} (hs : stateOf? states id = some s)
    (hkeep : f s = s) : stateOf? (states.map f) id = some s := by
  rw [stateOf?_map hf, hs, Option.map_some, hkeep]

theorem succeeded_kept_by_replace {id other : String} {t next : PlanNodeState}
    (hs : stateOf? states id = some s) (hdone : s.status = .succeeded)
    (ht : stateOf? states other = some t) (hne : t.status ≠ .succeeded)
    (hid : next.nodeId = t.nodeId) : stateOf? (states.map (replacing next)) id = some s := by
  refine stateOf?_replace hs ?_
  intro heq
  rw [heq, hid, (mem_of_stateOf? ht).2, ht] at hs
  exact hne (Option.some.inj hs ▸ hdone)

theorem repairState_of_succeeded {failed : PlanNodeState} {invalidated : List String}
    (hne : s.nodeId ≠ failed.nodeId) (hdone : s.status = .succeeded) :
    VerifiedPlanRuntime.repairState failed invalidated now s = s := by
  rw [VerifiedPlanRuntime.repairState, if_neg hne, if_neg]
  exact fun hc => hc.2 hdone

/-- A revision resets the node, or its next graph does not have it. -/
def ResetBy (r' : VerifiedPlanRuntime) (id : String) : PlanOperation → Prop
  | .revise .. => nodeOf? r'.graph.nodes id = none
      ∨ ∃ proof, r'.revisionProofs.getLast? = some proof ∧ id ∈ proof.resetNodeIds
  | _ => False

theorem PlanInv.succeeded_kept (h : PlanInv cfg r) (hapart : Apart cfg r op)
    (hok : op.run cfg r = .ok r') {id : String} (hs : stateOf? r.states id = some s)
    (hdone : s.status = .succeeded) : stateOf? r'.states id = some s ∨ ResetBy r' id op := by
  cases op with
  | bindBeliefs beliefs now =>
    obtain ⟨-, invalidated, ready, normalized, rfl, -⟩ := bindBeliefs_ok hok
    refine .inl (stateOf?_map_of_eq (refreshState_nodeId now · ready) ?_
      (refreshState_of_succeeded hdone))
    exact stateOf?_map_of_eq (invalidateState_nodeId now · invalidated) hs
      (invalidateState_of_succeeded hdone)
  | startNode nodeId now =>
    obtain ⟨-, node, t, -, ht, hready, -, rfl⟩ := startNode_ok hok
    exact .inl (succeeded_kept_by_replace hs hdone ht (by rw [hready]; decide) rfl)
  | recordExecution nodeId observation now =>
    obtain ⟨-, node, t, normalized, -, ht, hrunning, -, hcases⟩ := recordExecution_ok hok
    have hne : t.status ≠ .succeeded := by
      rw [hrunning]
      decide
    rcases hcases with ⟨-, digest, invalidated, -, -, rfl⟩ | ⟨-, rfl⟩
    · refine .inl (stateOf?_map_of_eq (repairState_nodeId now · _ invalidated)
        (succeeded_kept_by_replace hs hdone ht hne rfl)
        (repairState_of_succeeded ?_ hdone))
      intro heq
      have hst : s = t :=
        h.state_eq (mem_of_stateOf? hs).1 (mem_of_stateOf? ht).1 heq
      exact hne (hst ▸ hdone)
    · exact .inl (succeeded_kept_by_replace hs hdone ht hne rfl)
  | markVerifiedComplete nodeId receipt now =>
    obtain ⟨-, node, t, _, _, -, ht, hstatus, -, -, -, hcases⟩ := markVerifiedComplete_ok hok
    have hne : t.status ≠ .succeeded := by
      rcases hstatus with heq | heq
      · rw [heq]
        decide
      · rw [heq]
        decide
    rcases hcases with ⟨-, rfl⟩ | ⟨-, rfl⟩
    · exact .inl (succeeded_kept_by_replace hs hdone ht hne rfl)
    · exact .inl (succeeded_kept_by_replace hs hdone ht hne rfl)
  | appendDecision decision =>
    rcases appendDecision_ok hok with rfl | ⟨_, _, -, -, rfl⟩
    · exact .inl hs
    · exact .inl hs
  | revise nextGraph now =>
    obtain ⟨revision, reset, hrev, hnodes, hfew, rfl⟩ := h.revise_ok hapart hok
    cases hnode : nodeOf? revision.graph.nodes id with
    | none => exact .inr (.inl hnode)
    | some node =>
      obtain ⟨hmem, rfl⟩ := mem_of_nodeOf? hnode
      by_cases hin : node.id ∈ reset
      · exact .inr (.inr ⟨revision.proof, List.getLast?_concat,
          hrev.proofResets node.id hin⟩)
      · exact .inl (hrev.kept hmem hin hs)

theorem Slot.get?_of_truthy {slot : Slot String} {text : String}
    (h : slot.truthy = some text) : slot.get? = some text :=
  (Option.filter_eq_some_iff.1 h).1

theorem PlanInv.one_receipt (h : PlanInv cfg r) {node : PlanNode} (hnode : node ∈ r.graph.nodes)
    (hs : stateOf? r.states node.id = some s) (hdone : s.status = .succeeded)
    (hkeys : node.verificationFactKeys ≠ []) :
    ∃ x, (r.receipts.filter fun y => y.nodeId == node.id) = [x]
    ∧ x.attempt = s.attempts ∧ s.lastExecutionDigest.get? = some x.executionDigest
    ∧ s.verificationReceiptDigest.get? = some x.digest
    ∧ s.verifiedNodeDigest.get? = some (digestPlan cfg (node.toJson cfg)) := by
  obtain ⟨hmem, hid⟩ := mem_of_stateOf? hs
  obtain ⟨x, hx, hxid, href⟩ := h.verified node hnode s hmem hid hdone hkeys
  have honly : ∀ y ∈ r.receipts, y.nodeId = node.id → y = x := by
    intro y hy hyid
    obtain ⟨node', s', hsound⟩ := h.receipts y hy
    have hstate := hsound.hasState
    rw [hyid, hs] at hstate
    obtain rfl := Option.some.inj hstate
    refine List.inj_on_of_nodup_map h.distinct hy hx ?_
    exact Slot.val.inj (hsound.referenced.symm.trans href)
  obtain ⟨node', s', hsound⟩ := h.receipts x hx
  have hstate := hsound.hasState
  rw [hxid, hs] at hstate
  obtain rfl := Option.some.inj hstate
  obtain ⟨e, he, hbound⟩ := hsound.bound
  obtain ⟨-, -, -, -, -, -, hattempt, hexecution⟩ := validateCompletionReceipt_ok hbound
  have htruthy : s.verificationReceiptDigest.truthy = some x.digest := by
    rw [href]
    exact Slot.truthy_val (h.receipt_ne_empty hx)
  have hcontent := ((h.nodes node hnode s hmem hid).receipt htruthy).2.2.1
  refine ⟨x, ?_, hattempt, ?_, by rw [href]; rfl, Slot.get?_of_truthy hcontent⟩
  · refine List.Perm.eq_singleton ((List.perm_ext_iff_of_nodup
      (h.distinct.of_map.filter _) (List.nodup_singleton x)).2 ?_)
    intro y
    rw [List.mem_filter, List.mem_singleton, beq_iff_eq]
    constructor
    · intro hy
      exact honly y hy.1 hy.2
    · intro hy
      rw [hy]
      exact ⟨hx, hxid⟩
  · rw [hexecution]
    exact Slot.get?_of_truthy he

end

-- ===== the main result

/-- Along every run whose `bindBeliefs` calls are given timestamps:
dependencies are done, receipts are there and only there, success is kept,
the exported state is taken back, and a revision is never refused by the
runtime it makes. -/
theorem plan_runtime_sound (cfg : PlanConfig) (draft : GoalDraft) (goal : CompiledGoal)
    (graph : PlanGraph) (now : String) (r₀ r : VerifiedPlanRuntime)
    (ops : List PlanOperation) (hgoal : compileGoal draft = .ok goal)
    (hcreate : VerifiedPlanRuntime.create cfg goal graph now = .ok r₀) (hnow : isIso now = true)
    (hrun : Run (Where (planSteps cfg) fun r op => Timely op ∧ Apart cfg r op) r₀ ops r) :
    (∀ node ∈ r.graph.nodes, ∀ s, stateOf? r.states node.id = some s → s.started →
        DependenciesDone r.states node)
      ∧ (∀ node ∈ r.graph.nodes, ∀ s, stateOf? r.states node.id = some s →
        s.status = .succeeded → node.verificationFactKeys ≠ [] →
        ∃ x, (r.receipts.filter fun y => y.nodeId == node.id) = [x]
          ∧ x.attempt = s.attempts ∧ s.lastExecutionDigest.get? = some x.executionDigest
          ∧ s.verificationReceiptDigest.get? = some x.digest
          ∧ s.verifiedNodeDigest.get? = some (digestPlan cfg (node.toJson cfg)))
      ∧ (∀ op r', Apart cfg r op → op.run cfg r = .ok r' → ∀ id s,
        stateOf? r.states id = some s → s.status = .succeeded →
        stateOf? r'.states id = some s ∨ ResetBy r' id op) ∧ fromState cfg r.exportState = .ok r
      ∧ ∀ nextGraph at' revision, Apart cfg r (.revise nextGraph at') →
        r.revisionProofs.length < 10000 →
        revisePlan cfg r.goal r.graph r.states nextGraph at' = .ok revision →
        ∃ r', r.revise cfg nextGraph at' = .ok r' := by
  have hinv : PlanInv cfg r ∧ Timed r.states := by
    refine hrun.invariant (I := fun r => PlanInv cfg r ∧ Timed r.states)
      ⟨PlanInv.create hgoal hcreate, timed_create hcreate hnow⟩ ?_
    intro a b op ha hstep
    rw [hstep.1]
    exact ⟨ha.1.step hstep.2.2, ha.1.timed_step ha.2 hstep.2.1 hstep.2.2⟩
  obtain ⟨h, htimed⟩ := hinv
  refine ⟨?_, ?_, ?_, h.fromState_exportState htimed, ?_⟩
  · intro node hnode s hs
    obtain ⟨hmem, hid⟩ := mem_of_stateOf? hs
    exact h.dependencies node hnode s hmem hid
  · intro node hnode s hs hdone hkeys
    exact h.one_receipt hnode hs hdone hkeys
  · intro op r' hapart hok id s hs hdone
    exact h.succeeded_kept hapart hok hs hdone
  · intro nextGraph at' revision hapart hfew hrevision
    obtain ⟨hnext, reset, hrev⟩ := revisePlan_ok hrevision
    refine ⟨revisedOf cfg r revision, ?_⟩
    rw [VerifiedPlanRuntime.revise, hrevision, ok_bind]
    exact h.restore_revised hrev (hapart revision.graph hnext) hfew (hrev.timed htimed)

def sampleDraft : GoalDraft where
  id := "g"
  kind := "k"
  objective := "o"
  successFactKeys := ["f"]
  forbiddenFactKeys := []
  constraints := []
  unresolvedAssumptions := []

theorem compileGoal_sampleDraft : compileGoal sampleDraft = .ok sampleGoal := by
  rfl

/-- Beliefs are bound at a time that is no timestamp; the exported state is
not taken back. -/
theorem bindBeliefs_stores_its_clock : compileGoal sampleDraft = .ok sampleGoal
    ∧ ∃ r₀, VerifiedPlanRuntime.create sampleConfig sampleGoal familyGraph sampleTime = .ok r₀
      ∧ ∃ r, r₀.bindBeliefs [] "yesterday" = .ok r
        ∧ ¬ ∃ r', fromState sampleConfig r.exportState = .ok r' := by
  have hrun : (VerifiedPlanRuntime.create sampleConfig sampleGoal familyGraph
      sampleTime >>= fun r₀ => r₀.bindBeliefs [] "yesterday").map
        (fun r => r.states.map (·.lastUpdatedAt)) = .ok ["yesterday", "yesterday"] := by
    decide
  refine ⟨compileGoal_sampleDraft, ?_⟩
  cases hcreate : VerifiedPlanRuntime.create sampleConfig sampleGoal familyGraph
      sampleTime with
  | error e =>
    rw [hcreate] at hrun
    cases hrun
  | ok r₀ =>
    rw [hcreate, ok_bind] at hrun
    cases hbind : r₀.bindBeliefs [] "yesterday" with
    | error e =>
      rw [hbind] at hrun
      cases hrun
    | ok r =>
      rw [hbind] at hrun
      refine ⟨r₀, rfl, r, hbind, ?_⟩
      intro htaken
      obtain ⟨r', htaken⟩ := htaken
      have htimes : r.states.map (·.lastUpdatedAt) = ["yesterday", "yesterday"] :=
        Except.ok.inj hrun
      have hin : "yesterday" ∈ r.states.map (·.lastUpdatedAt) := by
        rw [htimes]
        exact List.mem_cons_self ..
      obtain ⟨s, hs, htime⟩ := List.mem_map.1 hin
      have hiso := timed_of_restore htaken s hs
      rw [htime] at hiso
      exact absurd hiso (by decide)

def soloGraph (version : Nat) : PlanGraph where
  planId := "plan"
  goalId := "g"
  version := version
  rootNodeIds := ["p"]
  nodes := [sampleNode "p" none]

theorem nodesApart_soloGraph (cfg : PlanConfig) {previous next : PlanGraph}
    (hprevious : previous.nodes = [sampleNode "p" none])
    (hnext : next.nodes = [sampleNode "p" none]) : NodesApart cfg previous next := by
  intro a ha b hb _
  rw [nodeTexts, hprevious, hnext] at ha hb
  obtain ⟨n, hn, rfl⟩ := List.mem_map.1 ha
  obtain ⟨m, hm, rfl⟩ := List.mem_map.1 hb
  rcases List.mem_pair.1 hn with rfl | rfl
  · rcases List.mem_pair.1 hm with rfl | rfl
    · rfl
    · rfl
  · rcases List.mem_pair.1 hm with rfl | rfl
    · rfl
    · rfl

/-- The node is started, and the plan is revised after its execution
failed. -/
theorem plan_runtime_sound_revised :
    ∃ r₀, VerifiedPlanRuntime.create sampleConfig sampleGoal (soloGraph 1) sampleTime = .ok r₀
    ∧ ∃ r, r = ((r₀.step sampleConfig (.startNode "p" sampleTime)).step sampleConfig
          (.recordExecution "p" failedObservation sampleTime)).step sampleConfig
            (.revise (soloGraph 2) sampleTime)
      ∧ fromState sampleConfig r.exportState = .ok r := by
  have hrun : (VerifiedPlanRuntime.create sampleConfig sampleGoal (soloGraph 1)
      sampleTime).map (fun r₀ =>
        let r := (r₀.step sampleConfig (.startNode "p" sampleTime)).step sampleConfig
          (.recordExecution "p" failedObservation sampleTime)
        (r.graph, (validatePlanGraph r.goal (soloGraph 2)).toOption.map (·.nodes)))
      = .ok (soloGraph 1, some [sampleNode "p" none]) := by
    decide
  cases hcreate : VerifiedPlanRuntime.create sampleConfig sampleGoal (soloGraph 1)
      sampleTime with
  | error e =>
    rw [hcreate] at hrun
    cases hrun
  | ok r₀ =>
    rw [hcreate] at hrun
    obtain ⟨hgraph, hnext⟩ := Prod.mk.inj (Except.ok.inj hrun)
    refine ⟨r₀, rfl, _, rfl, (plan_runtime_sound sampleConfig sampleDraft sampleGoal
      (soloGraph 1) sampleTime r₀ _ ([] ++ [PlanOperation.startNode "p" sampleTime]
        ++ [PlanOperation.recordExecution "p" failedObservation sampleTime]
        ++ [PlanOperation.revise (soloGraph 2) sampleTime]) compileGoal_sampleDraft hcreate
      (by decide) ?_).2.2.2.1⟩
    refine Run.snoc (Run.snoc (Run.snoc Run.nil ⟨rfl, trivial, trivial⟩)
      ⟨rfl, trivial, trivial⟩) ⟨rfl, trivial, ?_⟩
    intro next hvalid
    rw [hvalid] at hnext
    exact nodesApart_soloGraph sampleConfig (by rw [hgraph]; rfl) (Option.some.inj hnext)

end OperatorRuntime.Plan
