/-
`selectChoiceBranch` of `packages/verified-plan-runtime/src/choice-policy.ts`,
and when a plan with choices goes on. A node that hangs on the selected
alternative is kept, though it may hang on another one as well, which is
skipped; a dependency that is skipped never succeeds, so the node waits for
ever. Without such a node the first unfinished one of an acyclic plan can be
started.
-/
import OperatorRuntime.Plan.Proofs.Closure
import OperatorRuntime.Plan.Proofs.Normal
import OperatorRuntime.Plan.Proofs.Unsettled

namespace OperatorRuntime.Plan

open Lib

-- ===== the choice

structure ChoiceSelectionResult where
  choiceGroup : String
  selectedNodeId : String
  skippedNodeIds : List String
  states : List PlanNodeState

/-- The other alternatives, with what hangs on them and not on the selected one. -/
def skippedNodes (graph : PlanGraph) (choiceGroup selectedNodeId : String) : List String :=
  let siblings := (graph.nodes.filter (·.choiceGroup = some choiceGroup)).filter
    (·.id ≠ selectedNodeId)
  (siblings.flatMap fun sibling => dependentClosure graph [sibling.id]).filter
    (· ∉ dependentClosure graph [selectedNodeId])

def skipState (skipped : List String) (now : String) (state : PlanNodeState) : PlanNodeState :=
  if state.nodeId ∉ skipped ∨ state.status = .succeeded then state
  else { state with status := .skipped
                    lastReason := .val "alternative-choice-not-selected"
                    lastUpdatedAt := now }

def selectChoiceBranch (graph : PlanGraph) (states : List PlanNodeState)
    (choiceGroup selectedNodeId now : String) : Except String ChoiceSelectionResult := do
  let alternatives := graph.nodes.filter (·.choiceGroup = some choiceGroup)
  throwIf (alternatives.length < 2) "choice group must contain at least two alternatives."
  throwIf (selectedNodeId ∉ alternatives.map (·.id)) "selected node is not in the choice group."
  match stateOf? states selectedNodeId with
  | none => .error "selected node state is missing."
  | some selectedState => do
    throwIf (selectedState.status = .failed ∨ selectedState.status = .invalidated
      ∨ selectedState.status = .skipped) "selected choice branch is not executable."
    let siblings := (alternatives.filter (·.id ≠ selectedNodeId)).filterMap
      fun n => stateOf? states n.id
    throwIf (∃ s ∈ siblings, s.status = .succeeded)
      "choice group is already committed to a different successful branch."
    throwIf (∃ s ∈ siblings, s.status = .running)
      "cannot switch choice while another alternative is running."
    throwIf (∃ s ∈ siblings, s.status = .blocked ∧ s.lastExecutionDigest.truthy.isSome = true)
      "cannot switch choice while another alternative is awaiting verification."
    throwIf (∃ s ∈ siblings, s.status = .failed ∧ s.lastReason.get?
        = some "mutation-side-effects-uncertain-reconciliation-required")
      "cannot switch choice while another alternative has uncertain side effects."
    let skipped := skippedNodes graph choiceGroup selectedNodeId
    .ok { choiceGroup, selectedNodeId, skippedNodeIds := unique skipped
          states := states.map (skipState skipped now) }

/-- A choice, a belief binding, or a step of an execution that succeeds. -/
inductive ChoiceAct
  | select (choiceGroup selectedNodeId now : String)
  | bind (beliefs : List BeliefView) (now : String)
  | start (nodeId now : String)
  | accept (nodeId digest : String) (assessment : NodeOutcomeAssessment) (now : String)
  | verify (nodeId receiptDigest nodeDigest now : String)

def advance (states : List PlanNodeState) (nodeId : String) (status : PlanNodeStatus)
    (next : PlanNodeState → PlanNodeState) : Option (List PlanNodeState) :=
  match stateOf? states nodeId with
  | none => none
  | some state =>
    if state.status = status then
      some (states.map fun s => if s.nodeId = nodeId then next state else s)
    else none

def choiceStep (graph : PlanGraph) (states : List PlanNodeState) :
    ChoiceAct → Option (List PlanNodeState)
  | .select choiceGroup selectedNodeId now =>
    (selectChoiceBranch graph states choiceGroup selectedNodeId now).toOption.map (·.states)
  | .bind beliefs now => (bindPlanToBeliefs graph states beliefs now).toOption.map (·.states)
  | .start nodeId now =>
    advance states nodeId .ready (VerifiedPlanRuntime.startedState · now)
  | .accept nodeId digest assessment now =>
    advance states nodeId .running (VerifiedPlanRuntime.acceptedState · digest assessment now)
  | .verify nodeId receiptDigest nodeDigest now =>
    advance states nodeId .blocked
      (VerifiedPlanRuntime.verifiedState · receiptDigest nodeDigest now)

/-- A choice skips no node that a node it keeps depends on. -/
def KeepsNoJoin (graph : PlanGraph) (_ : List PlanNodeState) : ChoiceAct → Prop
  | .select choiceGroup selectedNodeId _ =>
    ∀ node ∈ graph.nodes, node.id ∉ skippedNodes graph choiceGroup selectedNodeId →
      ∀ dep ∈ node.dependsOn, dep ∉ skippedNodes graph choiceGroup selectedNodeId
  | _ => True

-- ===== first of the unfinished

variable {nodes : List PlanNode} {graph : PlanGraph} {states : List PlanNodeState}

/-- Every node stands before what it depends on. -/
def Ordered (nodes : List PlanNode) : List String → Prop
  | [] => True
  | id :: later => Ordered nodes later
    ∧ ∀ node, nodeOf? nodes id = some node → ∀ dep ∈ node.dependsOn,
      (nodeOf? nodes dep).isSome = true → dep ∈ later

/-- What a visit, or several, do to the visited ids. -/
structure Visited (nodes : List PlanNode) (ids before after : List String) : Prop where
  ordered : Ordered nodes after
  kept : ∀ id ∈ before, id ∈ after
  reached : ∀ id ∈ ids, (nodeOf? nodes id).isSome = true → id ∈ after

theorem visited_foldlM {f : List String → String → Except String (List String)}
    (hf : ∀ before id after, f before id = .ok after → Ordered nodes before →
      Visited nodes [id] before after) {ids before after : List String}
    (h : ids.foldlM f before = .ok after) (hordered : Ordered nodes before) :
    Visited nodes ids before after := by
  induction ids generalizing before with
  | nil =>
    cases h
    exact ⟨hordered, fun _ hin => hin, fun _ hin => by cases hin⟩
  | cons id ids ih =>
    rw [List.foldlM_cons] at h
    obtain ⟨mid, hmid, h⟩ := bind_eq_ok.1 h
    have hfirst := hf before id mid hmid hordered
    have hrest := ih h hfirst.ordered
    refine ⟨hrest.ordered, fun x hx => hrest.kept x (hfirst.kept x hx), fun x hx hknown => ?_⟩
    rcases List.mem_cons.1 hx with rfl | hx
    · exact hrest.kept x (hfirst.reached x (List.mem_singleton_self x) hknown)
    · exact hrest.reached x hx hknown

theorem visit_ok {fuel : Nat} {visiting before after : List String} {id : String}
    (h : visit nodes fuel visiting before id = .ok after) (hordered : Ordered nodes before) :
    Visited nodes [id] before after := by
  induction fuel generalizing visiting before after id with
  | zero => cases h
  | succ fuel ih =>
    rw [visit] at h
    obtain ⟨_, _, h⟩ := bind_eq_ok.1 h
    split at h
    · next hin =>
      cases h
      exact ⟨hordered, fun _ hx => hx, fun x hx _ => List.mem_singleton.1 hx ▸ hin⟩
    cases hnode : nodeOf? nodes id with
    | none =>
      rw [hnode] at h
      cases h
      refine ⟨hordered, fun _ hx => hx, fun x hx hknown => ?_⟩
      rw [List.mem_singleton.1 hx, hnode] at hknown
      cases hknown
    | some node =>
      rw [hnode] at h
      obtain ⟨mid, hmid, h⟩ := bind_eq_ok.1 h
      cases h
      have hall := visited_foldlM (fun _ _ _ hv ho => ih hv ho) hmid hordered
      refine ⟨⟨hall.ordered, ?_⟩, fun x hx => List.mem_cons_of_mem _ (hall.kept x hx),
        fun x hx _ => List.mem_cons.2 (.inl (List.mem_singleton.1 hx))⟩
      intro node' hnode' dep hdep hknown
      rw [hnode] at hnode'
      obtain rfl := Option.some.inj hnode'
      exact hall.reached dep (List.mem_append_left _ hdep) hknown

theorem Ordered.exists_first {P : String → Prop} {order : List String}
    (h : Ordered nodes order) (hsome : ∃ id ∈ order, P id) :
    ∃ id, P id ∧ ∀ node, nodeOf? nodes id = some node → ∀ dep ∈ node.dependsOn,
      (nodeOf? nodes dep).isSome = true → ¬ P dep := by
  induction order with
  | nil =>
    obtain ⟨id, hin, -⟩ := hsome
    cases hin
  | cons id later ih =>
    by_cases hlater : ∃ id ∈ later, P id
    · exact ih h.1 hlater
    obtain ⟨first, hfirst, hp⟩ := hsome
    rcases List.mem_cons.1 hfirst with rfl | hfirst
    · exact ⟨first, hp, fun node hnode dep hdep hknown hpdep =>
        hlater ⟨dep, h.2 node hnode dep hdep hknown, hpdep⟩⟩
    · exact absurd ⟨first, hfirst, hp⟩ hlater

theorem assertAcyclic_of_validatePlanGraph {goal : CompiledGoal} {input : PlanGraph}
    (h : validatePlanGraph goal input = .ok graph) : assertAcyclic graph.nodes = .ok () := by
  rw [validatePlanGraph] at h
  iterate 3 obtain ⟨_, _, h⟩ := bind_eq_ok.1 h
  obtain ⟨nodes, _, h⟩ := bind_eq_ok.1 h
  iterate 2 obtain ⟨_, _, h⟩ := bind_eq_ok.1 h
  obtain ⟨_, hcheck, h⟩ := bind_eq_ok.1 h
  obtain ⟨_, _, h⟩ := bind_eq_ok.1 h
  cases h
  rw [checkNodes] at hcheck
  iterate 3 obtain ⟨_, _, hcheck⟩ := bind_eq_ok.1 hcheck
  exact hcheck

-- ===== runs

/-- No step of an execution is due. -/
def PlanNodeState.over (s : PlanNodeState) : Prop :=
  s.status = .skipped ∨ s.status = .succeeded ∨ s.status = .invalidated

/-- A node that depends on a skipped one is not to be executed either. -/
structure ChoiceInv (graph : PlanGraph) (states : List PlanNodeState) : Prop where
  ids : states.map (·.nodeId) = graph.nodes.map (·.id)
  joins : ∀ node ∈ graph.nodes, ∀ s ∈ states, s.nodeId = node.id →
    ∀ d ∈ states, d.nodeId ∈ node.dependsOn → d.status = .skipped → s.over

theorem ChoiceInv.initial (graph : PlanGraph) (now : String) :
    ChoiceInv graph (initializeNodeStates graph now) := by
  refine ⟨by simp [initializeNodeStates], fun _ _ _ _ _ d hd _ hskipped => ?_⟩
  obtain ⟨node, -, rfl⟩ := List.mem_map.1 hd
  dsimp only at hskipped
  split at hskipped
  · cases hskipped
  · cases hskipped

theorem ChoiceInv.map (h : ChoiceInv graph states) {f : PlanNodeState → PlanNodeState}
    (hid : ∀ s, (f s).nodeId = s.nodeId)
    (hskipped : ∀ d ∈ states, (f d).status = .skipped → d.status = .skipped)
    (hover : ∀ s ∈ states, s.over → (f s).over) : ChoiceInv graph (states.map f) := by
  refine ⟨?_, fun node hnode s' hs' hnodeId d' hd' hdep hskip => ?_⟩
  · rw [← h.ids, List.map_map]
    exact List.map_congr_left fun s _ => hid s
  · obtain ⟨s, hs, rfl⟩ := List.mem_map.1 hs'
    obtain ⟨d, hd, rfl⟩ := List.mem_map.1 hd'
    rw [hid] at hnodeId hdep
    exact hover s hs (h.joins node hnode s hs hnodeId d hd hdep (hskipped d hd hskip))

theorem ChoiceInv.advance (h : ChoiceInv graph states) (hnd : (graph.nodes.map (·.id)).Nodup)
    {nodeId : String} {status : PlanNodeStatus} {next : PlanNodeState → PlanNodeState}
    {states' : List PlanNodeState} (hstep : advance states nodeId status next = some states')
    (hnext : ∀ s, (next s).nodeId = s.nodeId ∧ (next s).status ≠ .skipped)
    (hstatus : ∀ s : PlanNodeState, s.status = status → ¬ s.over) : ChoiceInv graph states' := by
  unfold Plan.advance at hstep
  split at hstep
  · cases hstep
  next state hstate =>
  split at hstep
  · next hin =>
    cases hstep
    obtain ⟨hmem, rfl⟩ := (stateOf?_eq_some (h.ids ▸ hnd)).1 hstate
    refine h.map (fun s => ?_) (fun d _ hskip => ?_) fun s hs hover => ?_
    · split
      · next heq => rw [(hnext state).1, heq]
      · rfl
    · split at hskip
      · exact absurd hskip (hnext state).2
      · exact hskip
    · split
      · next heq =>
        obtain rfl : state = s := Option.some.inj
          (hstate.symm.trans ((stateOf?_eq_some (h.ids ▸ hnd)).2 ⟨hs, heq⟩))
        exact absurd hover (hstatus _ hin)
      · exact hover
  · cases hstep

theorem ChoiceInv.select (h : ChoiceInv graph states) {skipped : List String} {now : String}
    (hjoins : ∀ node ∈ graph.nodes, node.id ∉ skipped → ∀ dep ∈ node.dependsOn, dep ∉ skipped) :
    ChoiceInv graph (states.map (skipState skipped now)) := by
  have hid : ∀ s, (skipState skipped now s).nodeId = s.nodeId := by
    intro s
    unfold skipState
    split
    · rfl
    · rfl
  have hcases : ∀ s, skipState skipped now s = s ∧ (s.nodeId ∈ skipped → s.status = .succeeded)
      ∨ s.nodeId ∈ skipped ∧ (skipState skipped now s).status = .skipped := by
    intro s
    unfold skipState
    split
    · next hkeep => exact .inl ⟨rfl, fun hin => hkeep.resolve_left (not_not.2 hin)⟩
    · next hskip => exact .inr ⟨not_not.1 fun hout => hskip (.inl hout), rfl⟩
  refine ⟨?_, fun node hnode s' hs' hnodeId d' hd' hdep hskip => ?_⟩
  · rw [← h.ids, List.map_map]
    exact List.map_congr_left fun s _ => hid s
  obtain ⟨s, hs, rfl⟩ := List.mem_map.1 hs'
  obtain ⟨d, hd, rfl⟩ := List.mem_map.1 hd'
  rw [hid] at hnodeId hdep
  rcases hcases s with ⟨hsame, hdone⟩ | ⟨-, hskipped⟩
  · rw [hsame]
    rcases hcases d with ⟨hdsame, -⟩ | ⟨hdin, -⟩
    · rw [hdsame] at hskip
      exact h.joins node hnode s hs hnodeId d hd hdep hskip
    · refine .inr (.inl (hdone ?_))
      rw [hnodeId]
      exact not_not.1 fun hout => hjoins node hnode hout _ hdep hdin
  · exact .inl hskipped

theorem ChoiceInv.bind (h : ChoiceInv graph states) (hnd : (graph.nodes.map (·.id)).Nodup)
    {beliefs : List BeliefView} {now : String} {result : BeliefBindingResult}
    (hbind : bindPlanToBeliefs graph states beliefs now = .ok result) :
    ChoiceInv graph result.states := by
  obtain ⟨invalidated, ready, normalized, hstates, hready⟩ := bindPlanToBeliefs_ok hbind
  have hmid : ChoiceInv graph (states.map (invalidateState invalidated now)) := by
    refine h.map (fun s => invalidateState_nodeId now s invalidated) (fun d _ hskip => ?_)
      fun s _ hover => ?_
    · unfold invalidateState at hskip
      split at hskip
      · cases hskip
      · exact hskip
    · unfold invalidateState
      split
      · exact .inr (.inr rfl)
      · exact hover
  rw [hstates]
  refine hmid.map (fun s => refreshState_nodeId now s ready) (fun d _ hskip => ?_)
    fun s hs hover => ?_
  · unfold refreshState at hskip
    split at hskip
    · cases hskip
    · split at hskip
      · cases hskip
      · exact hskip
  · have hnot : s.nodeId ∉ ready := by
      intro hin
      obtain ⟨node, -, hid, hisReady⟩ := (hready _).1 hin
      obtain ⟨t, ht, hstatus, -⟩ := isReady_iff.1 hisReady
      obtain rfl : t = s := Option.some.inj
        (ht.symm.trans ((stateOf?_eq_some (hmid.ids ▸ hnd)).2 ⟨hs, hid.symm⟩))
      rcases hover with hover | hover | hover <;> rw [hover] at hstatus <;> simp at hstatus
    unfold refreshState
    rw [if_neg fun hin => hnot hin.1, if_neg]
    · exact hover
    · rintro ⟨hreadyStatus, -⟩
      rcases hover with hover | hover | hover <;> rw [hover] at hreadyStatus <;> cases hreadyStatus

/-- One operation, as long as it makes no node join two groups. -/
theorem ChoiceInv.step (h : ChoiceInv graph states) (hnd : (graph.nodes.map (·.id)).Nodup)
    {act : ChoiceAct} {states' : List PlanNodeState} (hcond : KeepsNoJoin graph states act)
    (hstep : choiceStep graph states act = some states') : ChoiceInv graph states' := by
  cases act with
  | select choiceGroup selectedNodeId now =>
    obtain ⟨result, hresult, rfl⟩ := Option.map_eq_some_iff.1 hstep
    have hok := toOption_eq_some.1 hresult
    unfold selectChoiceBranch at hok
    iterate 2 obtain ⟨_, _, hok⟩ := bind_eq_ok.1 hok
    split at hok
    · cases hok
    iterate 5 obtain ⟨_, _, hok⟩ := bind_eq_ok.1 hok
    cases hok
    exact h.select hcond
  | bind beliefs now =>
    obtain ⟨result, hresult, rfl⟩ := Option.map_eq_some_iff.1 hstep
    exact h.bind hnd (toOption_eq_some.1 hresult)
  | start nodeId now =>
    refine h.advance hnd hstep (fun s => ⟨rfl, fun h => by cases h⟩) fun s hs hover => ?_
    rcases hover with hover | hover | hover <;> rw [hs] at hover <;> cases hover
  | accept nodeId digest assessment now =>
    refine h.advance hnd hstep (fun s => ⟨rfl, ?_⟩) fun s hs hover => ?_
    · unfold VerifiedPlanRuntime.acceptedState
      dsimp only
      split
      · exact fun h => by cases h
      · exact fun h => by cases h
    · rcases hover with hover | hover | hover <;> rw [hs] at hover <;> cases hover
  | verify nodeId receiptDigest nodeDigest now =>
    refine h.advance hnd hstep (fun s => ⟨rfl, fun h => by cases h⟩) fun s hs hover => ?_
    rcases hover with hover | hover | hover <;> rw [hs] at hover <;> cases hover

-- ===== binding

theorem checkDistinct_ok {message : String} {seen keys : List String} (hnd : keys.Nodup)
    (hseen : ∀ key ∈ keys, key ∉ seen) : checkDistinct message seen keys = .ok () := by
  induction keys generalizing seen with
  | nil => rfl
  | cons key keys ih =>
    rw [List.nodup_cons] at hnd
    rw [checkDistinct, throwIf_of_not (hseen key (List.mem_cons_self ..)), ok_bind]
    refine ih hnd.2 fun other hother hin => ?_
    rcases List.mem_cons.1 hin with rfl | hin
    · exact hnd.1 hother
    · exact hseen other (List.mem_cons_of_mem _ hother) hin

theorem normalizeBeliefList_facts {seen : List String} {input beliefs : List BeliefView}
    (h : normalizeBeliefList seen input = .ok beliefs) :
    (beliefs.map (·.factKey)).Nodup ∧ ∀ b ∈ beliefs, b.factKey ∉ seen := by
  induction input generalizing seen beliefs with
  | nil =>
    cases h
    simp
  | cons belief input ih =>
    rw [normalizeBeliefList] at h
    obtain ⟨factKey, hfact, h⟩ := bind_eq_ok.1 h
    obtain ⟨_, hnew, h⟩ := bind_eq_ok.1 h
    obtain ⟨normalized, hnormalized, h⟩ := bind_eq_ok.1 h
    obtain ⟨rest, hrest, h⟩ := bind_eq_ok.1 h
    cases h
    obtain ⟨rfl, -⟩ := bounded_eq_ok.1 hfact
    have hkey : normalized.factKey = belief.factKey := by
      rw [normalizeBelief] at hnormalized
      iterate 4 obtain ⟨_, _, hnormalized⟩ := bind_eq_ok.1 hnormalized
      cases hnormalized
      rfl
    obtain ⟨hnd, hout⟩ := ih hrest
    rw [List.map_cons, List.nodup_cons, List.forall_mem_cons, hkey]
    refine ⟨⟨fun hin => ?_, hnd⟩, throwIf_eq_ok.1 hnew, fun b hb hin =>
      hout b hb (List.mem_cons_of_mem _ hin)⟩
    obtain ⟨b, hb, heq⟩ := List.mem_map.1 hin
    exact hout b hb (heq ▸ List.mem_cons_self ..)

theorem closurePass_nil (nodes : List PlanNode) : closurePass nodes [] = [] := by
  induction nodes with
  | nil => rfl
  | cons node nodes ih => simp [closurePass, attaches, ih]

theorem dependentClosure_nil (graph : PlanGraph) : dependentClosure graph [] = [] := by
  have hloop : whileSome (growClosure? graph.nodes) graph.nodes.length ([] : List String) = [] := by
    refine whileSome_invariant (I := fun closure => closure = []) ?_ _ rfl
    rintro closure next rfl hnext
    rw [(growClosure?_eq_some hnext).1, closurePass_nil]
  rw [dependentClosure, List.eraseDups_nil, hloop]
  rfl

theorem contradicts_eq_false {beliefs : List BeliefView} {p : PlanPrecondition}
    (h : preconditionMet beliefs p = true) : contradicts beliefs p = false := by
  unfold preconditionMet at h
  unfold contradicts
  cases hb : beliefs.find? fun b => b.factKey == p.factKey with
  | none => rfl
  | some b =>
    rw [hb] at h
    dsimp only at h ⊢
    split at h
    · next hstatus =>
      cases hp : p.expectedValueDigest with
      | none => rcases hstatus with hs | hs <;> simp [hs]
      | some expected =>
        rw [Bool.and_eq_true, hp] at h
        have hselected : b.selectedValueDigest = some expected := by simpa using h.2
        rcases hstatus with hs | hs <;> simp [hs, hselected]
    · next hstatus =>
      have hs : b.status = .stale := by simp at h; exact h.1.2
      simp [hs]

/-- Its execution waits for its verification. -/
def Awaits (node : PlanNode) (s : PlanNodeState) : Prop :=
  s.status = .blocked ∧ s.lastExecutionDigest.truthy.isSome = true
    ∧ node.verificationFactKeys ≠ []

theorem bind_ready {beliefsInput beliefs : List BeliefView} (hinv : ChoiceInv graph states)
    (hnd : (graph.nodes.map (·.id)).Nodup) (hbeliefs : normalizeBeliefs beliefsInput = .ok beliefs)
    (hmet : ∀ node ∈ graph.nodes, ∀ p ∈ node.preconditions, preconditionMet beliefs p = true)
    {node : PlanNode} (hnode : node ∈ graph.nodes) (hready : isReady states beliefs node = true)
    {s : PlanNodeState} (hs : stateOf? states node.id = some s) (hdone : s.status ≠ .succeeded)
    (hrunning : s.status ≠ .running) (now : String) :
    ∃ result, bindPlanToBeliefs graph states beliefsInput now = .ok result
    ∧ ∃ s ∈ result.states, s.status = .ready := by
  have hroots : hardInvalidRoots graph states beliefs = [] := by
    rw [hardInvalidRoots, List.map_eq_nil_iff, List.filter_eq_nil_iff]
    intro node hnode hbad
    obtain ⟨t, -, hbad⟩ := (Option.any_eq_true _ _).1 hbad
    rw [Bool.and_eq_true, List.any_eq_true] at hbad
    obtain ⟨p, hp, hcontra⟩ := hbad.2
    rw [contradicts_eq_false (hmet node hnode p hp)] at hcontra
    cases hcontra
  have hsame : states.map (invalidateState [] now) = states := by
    refine (List.map_congr_left fun t _ => ?_).trans (List.map_id states)
    rw [invalidateState, if_neg fun h => List.not_mem_nil h.1]
    rfl
  have hfacts : (beliefs.map (·.factKey)).Nodup := by
    rw [normalizeBeliefs] at hbeliefs
    obtain ⟨_, _, hbeliefs⟩ := bind_eq_ok.1 hbeliefs
    exact (normalizeBeliefList_facts hbeliefs).1
  have hbind : bindPlanToBeliefs graph states beliefsInput now
      = .ok
        { states := states.map (refreshState (Json.sortTexts
            ((graph.nodes.filter (isReady states beliefs)).map (·.id))) now)
          invalidatedNodeIds := []
          readyNodeIds := Json.sortTexts
            ((graph.nodes.filter (isReady states beliefs)).map (·.id)) } := by
    rw [bindPlanToBeliefs, hbeliefs, ok_bind, hroots, show unique [] = [] from rfl,
      dependentClosure_nil]
    dsimp only
    rw [hsame, readyNodeIds, checkDistinct_ok (hinv.ids ▸ hnd) (fun _ _ => List.not_mem_nil),
      ok_bind, checkDistinct_ok hfacts (fun _ _ => List.not_mem_nil)]
    rfl
  obtain ⟨hmem, hid⟩ := mem_of_stateOf? hs
  have hin : s.nodeId ∈ Json.sortTexts
      ((graph.nodes.filter (isReady states beliefs)).map (·.id)) := by
    rw [mem_sortTexts, hid]
    exact List.mem_map_of_mem (List.mem_filter.2 ⟨hnode, hready⟩)
  refine ⟨_, hbind, refreshState _ now s, List.mem_map_of_mem hmem, ?_⟩
  rw [refreshState, if_pos ⟨hin, hdone, hrunning⟩]

/-- In every run in which no choice skips a node that a node it keeps depends
on: while a node is unfinished, none failed and no execution is under way,
binding beliefs that meet every precondition makes a node ready. -/
theorem choice_never_deadlocks {goal : CompiledGoal} {input : PlanGraph}
    (hgraph : validatePlanGraph goal input = .ok graph) {created : String} {acts : List ChoiceAct}
    (hrun : Run (Where (stepsOf (choiceStep graph)) (KeepsNoJoin graph))
      (initializeNodeStates graph created) acts states)
    {beliefsInput beliefs : List BeliefView} (hbeliefs : normalizeBeliefs beliefsInput = .ok beliefs)
    (hmet : ∀ node ∈ graph.nodes, ∀ p ∈ node.preconditions, preconditionMet beliefs p = true)
    (hopen : ∃ s ∈ states, s.status ≠ .succeeded ∧ s.status ≠ .skipped)
    (hcalm : ∀ s ∈ states, s.status ≠ .failed ∧ s.status ≠ .invalidated ∧ s.status ≠ .running)
    (hawaits : ∀ node ∈ graph.nodes, ∀ s ∈ states, s.nodeId = node.id → ¬ Awaits node s)
    (now : String) : ∃ result, bindPlanToBeliefs graph states beliefsInput now = .ok result
    ∧ ∃ s ∈ result.states, s.status = .ready := by
  have hvalid := valid_of_validatePlanGraph hgraph
  have hinv := hrun.invariant (ChoiceInv.initial graph created) fun hinv hstep =>
    hinv.step hvalid.nodup hstep.2 hstep.1
  have hsnd : (states.map (·.nodeId)).Nodup := hinv.ids ▸ hvalid.nodup
  have hknown : ∀ {s}, s ∈ states → ∃ node ∈ graph.nodes, node.id = s.nodeId := by
    intro s hs
    have hin := List.mem_map_of_mem (f := fun s : PlanNodeState => s.nodeId) hs
    rw [hinv.ids] at hin
    exact List.mem_map.1 hin
  have hacyclic := assertAcyclic_of_validatePlanGraph hgraph
  rw [assertAcyclic] at hacyclic
  obtain ⟨order, hvisit, -⟩ := bind_eq_ok.1 hacyclic
  have hvisited := visited_foldlM (fun _ _ _ hv ho => visit_ok hv ho) hvisit trivial
  obtain ⟨s, hs, hsopen⟩ := hopen
  obtain ⟨node, hnode, hid⟩ := hknown hs
  -- the first unfinished node depends on nothing unfinished
  obtain ⟨first, ⟨t, ht, htopen⟩, hfirst⟩ := hvisited.ordered.exists_first
    (P := fun id => ∃ s, stateOf? states id = some s
      ∧ s.status ≠ .succeeded ∧ s.status ≠ .skipped)
    ⟨s.nodeId, hvisited.reached _ (hid ▸ List.mem_map_of_mem hnode) (by
      rw [← hid, (nodeOf?_eq_some hvalid.nodup).2 ⟨hnode, rfl⟩]
      rfl), s, (stateOf?_eq_some hsnd).2 ⟨hs, rfl⟩, hsopen⟩
  obtain ⟨htmem, rfl⟩ := mem_of_stateOf? ht
  obtain ⟨node, hnode, hid⟩ := hknown htmem
  obtain ⟨hfailed, hinvalidated, hrunning⟩ := hcalm t htmem
  refine bind_ready hinv hvalid.nodup hbeliefs hmet hnode (isReady_iff.2 ⟨t, hid ▸ ht, ?_,
    hawaits node hnode t htmem hid.symm, fun dep hdep => ?_, hmet node hnode⟩) (hid ▸ ht) htopen.1
    hrunning now
  · cases hstatus : t.status with
    | pending => exact .inl rfl
    | ready => exact .inr (.inl rfl)
    | blocked => exact .inr (.inr rfl)
    | running => exact absurd hstatus hrunning
    | invalidated => exact absurd hstatus hinvalidated
    | succeeded => exact absurd hstatus htopen.1
    | failed => exact absurd hstatus hfailed
    | skipped => exact absurd hstatus htopen.2
  · obtain ⟨other, hother, rfl⟩ := hvalid.links node hnode dep hdep
    have hin := List.mem_map_of_mem (f := fun n : PlanNode => n.id) hother
    rw [← hinv.ids] at hin
    obtain ⟨d, hd, hdid⟩ := List.mem_map.1 hin
    have hdstate : stateOf? states other.id = some d := (stateOf?_eq_some hsnd).2 ⟨hd, hdid⟩
    refine ⟨d, hdstate, ?_⟩
    by_contra hdone
    have hskipped : d.status = .skipped := by
      by_contra hne
      refine hfirst node ((nodeOf?_eq_some hvalid.nodup).2 ⟨hnode, hid⟩) other.id hdep ?_
        ⟨d, hdstate, hdone, hne⟩
      rw [(nodeOf?_eq_some hvalid.nodup).2 ⟨hother, rfl⟩]
      rfl
    rcases hinv.joins node hnode t htmem hid.symm d hd (hdid ▸ hdep) hskipped with h | h | h
    · exact htopen.2 h
    · exact htopen.1 h
    · exact hinvalidated h

-- ===== samples

/-- Two alternatives, and a node that depends on the given ones. -/
def choiceGraph (joined : List String) : PlanGraph where
  planId := "plan"
  goalId := "g"
  version := 1
  rootNodeIds := ["a"]
  nodes := [{ sampleNode "a" none with choiceGroup := some "c" },
    { sampleNode "b" none with choiceGroup := some "c" },
    { sampleNode "j" none with dependsOn := joined }]

/-- The first alternative is selected and succeeds. -/
def choiceActs : List ChoiceAct :=
  [.select "c" "a" sampleTime, .start "a" sampleTime,
    .accept "a" "d" ⟨true, false, "execution-accepted", []⟩ sampleTime]

def chosenStates : List PlanNodeState :=
  (exec (choiceStep (choiceGraph ["a"])) (initializeNodeStates (choiceGraph ["a"]) sampleTime)
    choiceActs).getD []

/-- The node that was not chosen is dropped, and what depends on the chosen one
is ready. -/
theorem choice_never_deadlocks_chain : ∃ result,
    bindPlanToBeliefs (choiceGraph ["a"]) chosenStates [] sampleTime = .ok result
    ∧ ∃ s ∈ result.states, s.status = .ready := by
  have hgraph : validatePlanGraph sampleGoal (choiceGraph ["a"]) = .ok (choiceGraph ["a"]) := rfl
  have hexec : exec (choiceStep (choiceGraph ["a"]))
      (initializeNodeStates (choiceGraph ["a"]) sampleTime) choiceActs = some chosenStates := rfl
  have hkeeps : ∀ s, ∀ act ∈ choiceActs, KeepsNoJoin (choiceGraph ["a"]) s act := by
    intro s act hact
    rcases List.mem_cons.1 hact with rfl | hact
    · show ∀ node ∈ (choiceGraph ["a"]).nodes, _
      decide
    · rcases List.mem_pair.1 hact with rfl | rfl
      · trivial
      · trivial
  have hbeliefs : normalizeBeliefs [] = .ok [] := rfl
  exact choice_never_deadlocks hgraph (run_where_of_exec hexec hkeeps) hbeliefs (by decide)
    (by decide) (by decide) (by unfold Awaits; decide) sampleTime

/-- The node depends on both, and is not started. -/
theorem joined_choice_deadlocks : ∃ states result,
    Run (stepsOf (choiceStep (choiceGraph ["a", "b"])))
        (initializeNodeStates (choiceGraph ["a", "b"]) sampleTime) choiceActs states
      ∧ validatePlanGraph sampleGoal (choiceGraph ["a", "b"]) = .ok (choiceGraph ["a", "b"])
      ∧ states.map (·.status) = [.succeeded, .skipped, .pending]
      ∧ bindPlanToBeliefs (choiceGraph ["a", "b"]) states [] sampleTime = .ok result
      ∧ ∀ s ∈ result.states, s.status ≠ .ready := by
  refine ⟨_, _, run_of_exec rfl, rfl, rfl, rfl, ?_⟩
  decide

end OperatorRuntime.Plan
