/-
A runtime goes through its envelope and a JSON text in between. The digest
of an envelope is taken with the `undefined` fields of the node states in
it, the text leaves them out, and the digest is compared without them: a
runtime comes back exactly when no state has such a field (and every state
has a timestamp). `startNode`, `bindBeliefs` and a failed execution write
them.
-/
import OperatorRuntime.Plan.Runtime
import OperatorRuntime.Plan.Proofs.PlanRuns

namespace OperatorRuntime.Plan

open Lib

-- ===== well-formed

theorem GoalConstraint.wellFormed (c : GoalConstraint) : c.toJson.WellFormed := by
  refine .obj ?_ ?_
  · cases c.expectedValueDigest with
    | none => simp [optField]
    | some digest => simp [optField]
  · apply wellFormed_append
    · apply wellFormed_append
      · exact wellFormed_cons (.str _)
          (wellFormed_cons (.str _) (wellFormed_cons (.str _) wellFormed_nil))
      · exact wellFormed_optField .str
    · exact wellFormed_cons (.str _) wellFormed_nil

theorem CompiledGoal.wellFormed (goal : CompiledGoal) : goal.toJson.WellFormed := by
  refine .obj (by simp) ?_
  exact wellFormed_cons (.str _) (wellFormed_cons (.str _) (wellFormed_cons (.str _)
    (wellFormed_cons (wellFormed_texts _) (wellFormed_cons (wellFormed_texts _)
      (wellFormed_cons (wellFormed_arr fun c => c.wellFormed)
        (wellFormed_cons (wellFormed_texts _) wellFormed_nil))))))

theorem PlanGraph.wellFormed (cfg : PlanConfig) (graph : PlanGraph) :
    (graph.toJson cfg).WellFormed := by
  refine .obj (by simp) ?_
  exact wellFormed_cons (.str _) (wellFormed_cons (.str _)
    (wellFormed_cons (wellFormed_natJson _) (wellFormed_cons (wellFormed_texts _)
      (wellFormed_cons (wellFormed_arr fun node => node.wellFormed cfg) wellFormed_nil))))

theorem wellFormed_slot (key : String) (slot : Slot String) :
    ∀ field ∈ slot.field key, field.2.WellFormed := by
  cases slot with
  | absent => exact wellFormed_nil
  | undef => exact wellFormed_cons (.str _) wellFormed_nil
  | val text => exact wellFormed_cons (.str _) wellFormed_nil

theorem PlanNodeState.wellFormed (s : PlanNodeState) : s.toJson.WellFormed := by
  refine .obj ?_ ?_
  · rcases s with ⟨nodeId, status, attempts, _ | _ | reason, _ | _ | execution,
      _ | _ | receipt, _ | _ | content, updated⟩ <;> simp [Slot.field]
  · apply wellFormed_append
    · apply wellFormed_append
      · apply wellFormed_append
        · apply wellFormed_append
          · apply wellFormed_append
            · exact wellFormed_cons (.str _) (wellFormed_cons (.str _)
                (wellFormed_cons (wellFormed_natJson _) wellFormed_nil))
            · exact wellFormed_slot _ _
          · exact wellFormed_slot _ _
        · exact wellFormed_slot _ _
      · exact wellFormed_slot _ _
    · exact wellFormed_cons (.str _) wellFormed_nil

theorem PlanDecision.wellFormed (d : PlanDecision) : d.toJson.WellFormed := by
  refine .obj (by simp) ?_
  exact wellFormed_cons (.str _) (wellFormed_cons (.str _)
    (wellFormed_cons (wellFormed_natJson _) (wellFormed_cons (.str _)
      (wellFormed_cons (.str _) (wellFormed_cons (.str _) (wellFormed_cons (.str _)
        (wellFormed_cons (.str _) (wellFormed_cons (.str _)
          (wellFormed_cons (.str _) wellFormed_nil)))))))))

theorem PlanRevisionProof.wellFormed (p : PlanRevisionProof) : p.toJson.WellFormed := by
  have hentry : ∀ e : PreservedNodeDigest, e.toJson.WellFormed := fun e =>
    .obj (by simp) (wellFormed_cons (.str _) (wellFormed_cons (.str _) wellFormed_nil))
  refine .obj (by simp) ?_
  exact wellFormed_cons (.str _) (wellFormed_cons (.str _) (wellFormed_cons (.str _)
    (wellFormed_cons (wellFormed_natJson _) (wellFormed_cons (wellFormed_natJson _)
      (wellFormed_cons (.str _) (wellFormed_cons (.str _)
        (wellFormed_cons (wellFormed_arr hentry) (wellFormed_cons (wellFormed_texts _)
          (wellFormed_cons (.str _) wellFormed_nil)))))))))

theorem RuntimeState.wellFormed (cfg : PlanConfig) (state : RuntimeState) :
    (state.toJson cfg).WellFormed := by
  refine .obj (by simp) ?_
  exact wellFormed_cons (wellFormed_natJson _) (wellFormed_cons state.goal.wellFormed
    (wellFormed_cons (state.graph.wellFormed cfg) (wellFormed_cons (.str _)
      (wellFormed_cons (.str _) (wellFormed_cons (wellFormed_arr fun s => s.wellFormed)
        (wellFormed_cons (wellFormed_arr fun d => d.wellFormed)
          (wellFormed_cons (wellFormed_arr fun x => x.wellFormed)
            (wellFormed_cons (wellFormed_arr fun p => p.wellFormed) wellFormed_nil))))))))

-- ===== undefined fields

/-- No field of the state is there with the value `undefined`. -/
def PlanNodeState.Plain (s : PlanNodeState) : Prop :=
  s.lastReason ≠ .undef ∧ s.lastExecutionDigest ≠ .undef
    ∧ s.verificationReceiptDigest ≠ .undef ∧ s.verifiedNodeDigest ≠ .undef

theorem Slot.length_reload_field (key : String) (slot : Slot String) :
    (slot.reload.field key).length ≤ (slot.field key).length
    ∧ ((slot.reload.field key).length = (slot.field key).length → slot ≠ .undef) := by
  cases slot with
  | absent => exact ⟨Nat.le_refl _, fun _ => nofun⟩
  | undef => exact ⟨Nat.zero_le _, fun h => nomatch h⟩
  | val text => exact ⟨Nat.le_refl _, fun _ => nofun⟩

theorem Slot.reload_eq_self {slot : Slot String} (h : slot ≠ .undef) : slot.reload = slot := by
  cases slot with
  | absent => rfl
  | undef => exact absurd rfl h
  | val text => rfl

theorem PlanNodeState.Plain.reload_eq {s : PlanNodeState} (h : s.Plain) : s.reload = s := by
  rw [PlanNodeState.reload, Slot.reload_eq_self h.1, Slot.reload_eq_self h.2.1,
    Slot.reload_eq_self h.2.2.1, Slot.reload_eq_self h.2.2.2]

theorem length_eq_of_canonicalize_eq {fs gs : List (String × Json)}
    (h : (Json.obj fs).canonicalize = (Json.obj gs).canonicalize) : fs.length = gs.length := by
  simpa using (Json.canonicalFields_eq_perm h).length_eq

theorem plain_of_canonicalize_eq {s : PlanNodeState}
    (h : s.toJson.canonicalize = s.reload.toJson.canonicalize) : s.Plain := by
  have hlen := length_eq_of_canonicalize_eq h
  simp only [List.length_append, List.length_cons, List.length_nil] at hlen
  obtain ⟨hreason, hreason'⟩ := Slot.length_reload_field "lastReason" s.lastReason
  obtain ⟨hexecution, hexecution'⟩ :=
    Slot.length_reload_field "lastExecutionDigest" s.lastExecutionDigest
  obtain ⟨hreceipt, hreceipt'⟩ :=
    Slot.length_reload_field "verificationReceiptDigest" s.verificationReceiptDigest
  obtain ⟨hcontent, hcontent'⟩ :=
    Slot.length_reload_field "verifiedNodeDigest" s.verifiedNodeDigest
  simp only [PlanNodeState.reload] at hlen
  refine ⟨hreason' ?_, hexecution' ?_, hreceipt' ?_, hcontent' ?_⟩
  · omega
  · omega
  · omega
  · omega

theorem plain_of_canonicalJson_eq {cfg : PlanConfig} {state : RuntimeState}
    (h : Json.canonicalJson (state.toJson cfg) = Json.canonicalJson (state.reload.toJson cfg)) :
    ∀ s ∈ state.nodeStates, s.Plain := by
  have hform := (Json.canonicalJson_inj (state.wellFormed cfg) (state.reload.wellFormed cfg)).1 h
  have harr := Json.field_eq_of_canonicalize_eq (k := "nodeStates") hform
    (state.reload.wellFormed cfg) rfl rfl
  rw [Json.canonicalize, Json.canonicalize, Json.canonicalizeItems_eq,
    Json.canonicalizeItems_eq, Json.arr.injEq, List.map_map, RuntimeState.reload,
    List.map_map, List.map_map] at harr
  intro s hs
  exact plain_of_canonicalize_eq (List.map_inj_left.1 harr s hs)

theorem reload_exportState {r : VerifiedPlanRuntime} (h : ∀ s ∈ r.states, s.Plain) :
    r.exportState.reload = r.exportState := by
  have hstates : r.states.map PlanNodeState.reload = r.states :=
    (List.map_congr_left fun s hs => (h s hs).reload_eq).trans (List.map_id' _)
  rw [RuntimeState.reload]
  exact congrArg (fun states => { r.exportState with nodeStates := states }) hstates

-- ===== the main result

/-- The restored runtime is the exported one, up to `undefined` fields. -/
structure Restores (cfg : PlanConfig) (r r' : VerifiedPlanRuntime) : Prop where
  taken : fromEnvelope cfg (r.exportEnvelope cfg).reload = .ok r'
  goal : r'.goal = r.goal
  graph : r'.graph = r.graph
  states : r'.states.map PlanNodeState.reload = r.states.map PlanNodeState.reload
  decisions : r'.decisions = r.decisions
  receipts : r'.receipts = r.receipts
  revisionProofs : r'.revisionProofs = r.revisionProofs

/-- The two texts of an exported state, before and after the trip. -/
def payloadTexts (cfg : PlanConfig) (r : VerifiedPlanRuntime) : List String :=
  [Json.canonicalJson (r.exportState.toJson cfg),
    Json.canonicalJson (r.exportState.reload.toJson cfg)]

/-- Every runtime a run reaches is restored exactly when its states have no
`undefined` field and are timed. -/
theorem envelope_restores_iff (cfg : PlanConfig) (draft : GoalDraft) (goal : CompiledGoal)
    (graph : PlanGraph) (now : String) (r₀ r : VerifiedPlanRuntime)
    (ops : List PlanOperation) (hgoal : compileGoal draft = .ok goal)
    (hcreate : VerifiedPlanRuntime.create cfg goal graph now = .ok r₀)
    (hrun : Run (Where (planSteps cfg) (Apart cfg)) r₀ ops r)
    (hfree : Json.CollisionFree cfg.sha256 (payloadTexts cfg r)) :
    (∃ r', Restores cfg r r') ↔ ∀ s ∈ r.states, s.Plain ∧ isIso s.lastUpdatedAt = true := by
  have h : PlanInv cfg r := by
    refine hrun.invariant (PlanInv.create hgoal hcreate) ?_
    intro a b op ha hstep
    rw [hstep.1]
    exact ha.step hstep.2
  constructor
  · intro hrestored
    obtain ⟨r', hrestored⟩ := hrestored
    have htaken := hrestored.taken
    rw [fromEnvelope] at htaken
    obtain ⟨actual, hactual, htaken⟩ := bind_eq_ok.1 htaken
    obtain ⟨_, hsame, htaken⟩ := bind_eq_ok.1 htaken
    have hdigest := not_not.1 (throwIf_eq_ok.1 hsame)
    rw [← Except.ok.inj ((digestText_eq_self (isDigest_digestPlan cfg _)).symm.trans hactual)]
      at hdigest
    have htext := hfree _ (List.mem_cons_self ..) _
      (List.mem_cons_of_mem _ (List.mem_cons_self ..)) (Subtype.ext hdigest)
    have hplain : ∀ s ∈ r.states, s.Plain := plain_of_canonicalJson_eq htext
    have htimed := timed_of_restore htaken
    intro s hs
    exact ⟨hplain s hs, htimed s.reload (List.mem_map_of_mem hs)⟩
  · intro hstates
    have hreload := reload_exportState fun s hs => (hstates s hs).1
    refine ⟨r, ?_, rfl, rfl, rfl, rfl, rfl, rfl⟩
    have hpayload : (r.exportEnvelope cfg).reload = r.exportEnvelope cfg := by
      rw [RuntimeEnvelope.reload, VerifiedPlanRuntime.exportEnvelope, hreload]
    rw [hpayload, fromEnvelope]
    refine bind_eq_ok.2 ⟨_, digestText_eq_self (isDigest_digestPlan cfg _), ?_⟩
    refine bind_eq_ok.2 ⟨(), throwIf_of_not (not_not.2 rfl), ?_⟩
    exact h.fromState_exportState fun s hs => (hstates s hs).2

/-- Two digests. -/
def markDigest : Hex64 := ⟨String.ofList (List.replicate 64 'a'), by decide⟩

def restDigest : Hex64 := ⟨String.ofList (List.replicate 64 'b'), by decide⟩

def restConfig : PlanConfig :=
  { sampleConfig with sha256 := fun _ => restDigest }

/-- A node whose success is to be verified. -/
def checkedNode : PlanNode :=
  { sampleNode "p" none with verificationFactKeys := ["f"] }

/-- That node, and a node `c` under it. -/
def checkedGraph : PlanGraph :=
  { familyGraph with nodes := [checkedNode, sampleNode "c" (some "p")] }

def acceptedObservation : ExecutionObservation :=
  { failedObservation with executionOk := true }

def sampleReceipt : VerificationReceipt where
  digest := markDigest.val
  goalId := "g"
  planId := "plan"
  planVersion := 1
  nodeId := "p"
  attempt := 1
  executionDigest := restDigest.val
  verifierId := "v"
  verifiedAt := sampleTime
  authoritySnapshotDigest := restDigest.val

/-- The runtime after the node was started, executed and verified. -/
def verifiedRuntime (r₀ : VerifiedPlanRuntime) : VerifiedPlanRuntime :=
  ((r₀.step restConfig (.startNode "p" sampleTime)).step restConfig
    (.recordExecution "p" acceptedObservation sampleTime)).step restConfig
      (.markVerifiedComplete "p" sampleReceipt sampleTime)

/-- `startNode` leaves its fields `undefined`; the accepted execution and the
receipt fill each of them. -/
def verifiedStates : List PlanNodeState :=
  [VerifiedPlanRuntime.verifiedState (VerifiedPlanRuntime.acceptedState
      (VerifiedPlanRuntime.startedState (freshState sampleTime checkedNode) sampleTime) restDigest.val
      (assessNodeOutcome checkedNode acceptedObservation) sampleTime)
    markDigest.val restDigest.val sampleTime, freshState sampleTime (sampleNode "c" (some "p"))]

/-- A runtime is restored once the fields that a start cleared are filled again. -/
theorem envelope_restores_verified :
    ∃ r₀, VerifiedPlanRuntime.create restConfig sampleGoal checkedGraph sampleTime = .ok r₀
    ∧ (verifiedRuntime r₀).states = verifiedStates
    ∧ ∃ r', Restores restConfig (verifiedRuntime r₀) r' := by
  have hrun : (VerifiedPlanRuntime.create restConfig sampleGoal checkedGraph sampleTime).map
      (fun r₀ => (verifiedRuntime r₀).states) = .ok verifiedStates := by
    decide +kernel
  cases hcreate : VerifiedPlanRuntime.create restConfig sampleGoal checkedGraph sampleTime with
  | error e =>
    rw [hcreate] at hrun
    cases hrun
  | ok r₀ =>
    rw [hcreate] at hrun
    have hstates : (verifiedRuntime r₀).states = verifiedStates := Except.ok.inj hrun
    have hfilled : ∀ s ∈ (verifiedRuntime r₀).states, s.Plain ∧ isIso s.lastUpdatedAt = true := by
      rw [hstates]
      intro s hs
      rcases List.mem_pair.1 hs with rfl | rfl
      · exact ⟨⟨by decide, by decide, by decide, by decide⟩, by decide⟩
      · exact ⟨⟨by decide, by decide, by decide, by decide⟩, by decide⟩
    have hfree : Json.CollisionFree restConfig.sha256 (payloadTexts restConfig (verifiedRuntime r₀)) := by
      intro a ha b hb _
      rw [payloadTexts, reload_exportState fun s hs => (hfilled s hs).1] at ha hb
      rcases List.mem_pair.1 ha with rfl | rfl
      · rcases List.mem_pair.1 hb with rfl | rfl
        · rfl
        · rfl
      · rcases List.mem_pair.1 hb with rfl | rfl
        · rfl
        · rfl
    have hsteps : Run (Where (planSteps restConfig) (Apart restConfig)) r₀
        ([] ++ [PlanOperation.startNode "p" sampleTime]
          ++ [PlanOperation.recordExecution "p" acceptedObservation sampleTime]
          ++ [PlanOperation.markVerifiedComplete "p" sampleReceipt sampleTime]) (verifiedRuntime r₀) :=
      .snoc (.snoc (.snoc .nil ⟨rfl, trivial⟩) ⟨rfl, trivial⟩) ⟨rfl, trivial⟩
    exact ⟨r₀, rfl, hstates, (envelope_restores_iff restConfig sampleDraft sampleGoal
      checkedGraph sampleTime r₀ _ _ compileGoal_sampleDraft hcreate hsteps hfree).2 hfilled⟩

-- ===== a started node is lost

/-- A platform whose digests tell one text from all others. -/
def markedConfig (marked : String) : PlanConfig :=
  { sampleConfig with sha256 := fun text => if text = marked then markDigest else restDigest }

theorem digestPlan_marked (value : Json) :
    digestPlan (markedConfig (Json.canonicalJson value)) value = markDigest.val :=
  congrArg Subtype.val (if_pos rfl)

theorem digestPlan_unmarked {marked : String} {value : Json}
    (h : Json.canonicalJson value ≠ marked) :
    digestPlan (markedConfig marked) value = restDigest.val :=
  congrArg Subtype.val (if_neg h)

/-- The exported state when the one node runs. -/
def startedPayload : RuntimeState where
  goal := sampleGoal
  graph := soloGraph 1
  goalDigest := restDigest.val
  planDigest := restDigest.val
  nodeStates := [VerifiedPlanRuntime.startedState
    (freshState sampleTime (sampleNode "p" none)) sampleTime]
  decisions := []
  verificationReceipts := []
  revisionProofs := []

/-- The platform that marks its text. -/
def startedConfig : PlanConfig :=
  markedConfig (Json.canonicalJson (startedPayload.toJson sampleConfig))

theorem startedPayload_reload_text : Json.canonicalJson (startedPayload.reload.toJson startedConfig)
      ≠ Json.canonicalJson (startedPayload.toJson sampleConfig) := by
  intro h
  have hplain := @plain_of_canonicalJson_eq sampleConfig startedPayload h.symm _
    (List.mem_singleton.2 rfl)
  exact hplain.1 rfl

theorem length_eq_of_canonicalJson_eq {fs gs : List (String × Json)}
    (hf : (Json.obj fs).WellFormed) (hg : (Json.obj gs).WellFormed)
    (h : Json.canonicalJson (.obj fs) = Json.canonicalJson (.obj gs)) : fs.length = gs.length :=
  length_eq_of_canonicalize_eq ((Json.canonicalJson_inj hf hg).1 h)

theorem startedConfig_goalDigest : digestPlan startedConfig sampleGoal.toJson = restDigest.val := by
  refine digestPlan_unmarked ?_
  intro h
  have hlen := length_eq_of_canonicalJson_eq sampleGoal.wellFormed
    (startedPayload.wellFormed sampleConfig) h
  exact absurd hlen (by decide)

theorem startedConfig_planDigest :
    digestPlan startedConfig ((soloGraph 1).toJson startedConfig) = restDigest.val := by
  refine digestPlan_unmarked ?_
  intro h
  have hlen := length_eq_of_canonicalJson_eq ((soloGraph 1).wellFormed startedConfig)
    (startedPayload.wellFormed sampleConfig) h
  exact absurd hlen (by decide)

theorem startedPayload_digest :
    digestPlan startedConfig (startedPayload.toJson startedConfig) = markDigest.val :=
  digestPlan_marked (startedPayload.toJson sampleConfig)

theorem startedPayload_reload_digest :
    digestPlan startedConfig (startedPayload.reload.toJson startedConfig) = restDigest.val :=
  digestPlan_unmarked startedPayload_reload_text

theorem markDigest_ne_restDigest : markDigest.val ≠ restDigest.val := by
  decide

def startedRuntime : VerifiedPlanRuntime where
  goal := sampleGoal
  graph := soloGraph 1
  goalDigest := restDigest.val
  planDigest := restDigest.val
  states := startedPayload.nodeStates
  decisions := []
  receipts := []
  revisionProofs := []

theorem startedRuntime_exportState : startedRuntime.exportState = startedPayload := rfl

theorem startedRuntime_collisionFree :
    Json.CollisionFree startedConfig.sha256 (payloadTexts startedConfig startedRuntime) := by
  have hdiffer : startedConfig.sha256 (Json.canonicalJson (startedPayload.toJson startedConfig))
      ≠ startedConfig.sha256 (Json.canonicalJson (startedPayload.reload.toJson startedConfig)) := by
    intro hsame
    have hval : digestPlan startedConfig (startedPayload.toJson startedConfig)
        = digestPlan startedConfig (startedPayload.reload.toJson startedConfig) := by
      rw [digestPlan, hsame, digestPlan]
    rw [startedPayload_digest, startedPayload_reload_digest] at hval
    exact markDigest_ne_restDigest hval
  intro a ha b hb heq
  rw [payloadTexts, startedRuntime_exportState] at ha hb
  rcases List.mem_pair.1 ha with rfl | rfl
  · rcases List.mem_pair.1 hb with rfl | rfl
    · rfl
    · exact absurd heq hdiffer
  · rcases List.mem_pair.1 hb with rfl | rfl
    · exact absurd heq.symm hdiffer
    · rfl

theorem create_startedConfig :
    VerifiedPlanRuntime.create startedConfig sampleGoal (soloGraph 1) sampleTime
    = .ok { startedRuntime with states := [freshState sampleTime (sampleNode "p" none)] } := by
  have hgraph : validatePlanGraph sampleGoal (soloGraph 1) = .ok (soloGraph 1) := by
    decide
  rw [VerifiedPlanRuntime.create, hgraph, ok_bind, startedConfig_goalDigest,
    startedConfig_planDigest]
  rfl

theorem startNode_startedRuntime : VerifiedPlanRuntime.startNode
        { startedRuntime with states := [freshState sampleTime (sampleNode "p" none)] }
        "p" sampleTime = .ok startedRuntime := by
  rw [VerifiedPlanRuntime.startNode, validIso_eq_ok.2 ⟨rfl, by decide⟩]
  rfl

theorem fromEnvelope_startedRuntime :
    fromEnvelope startedConfig (startedRuntime.exportEnvelope startedConfig).reload
    = .error "verified plan runtime envelope payload digest mismatch." := by
  rw [fromEnvelope, RuntimeEnvelope.reload, VerifiedPlanRuntime.exportEnvelope,
    startedRuntime_exportState]
  dsimp only
  rw [startedPayload_digest, startedPayload_reload_digest,
    digestText_eq_self ⟨markDigest, rfl⟩, ok_bind, throwIf, if_pos markDigest_ne_restDigest]
  rfl

/-- A node is started; the digests of the two texts differ, and the
runtime does not come back. -/
theorem started_not_restored : compileGoal sampleDraft = .ok sampleGoal
    ∧ ∃ r₀, VerifiedPlanRuntime.create startedConfig sampleGoal (soloGraph 1) sampleTime = .ok r₀
      ∧ ∃ r, r₀.startNode "p" sampleTime = .ok r
        ∧ Json.CollisionFree startedConfig.sha256 (payloadTexts startedConfig r)
        ∧ fromEnvelope startedConfig (r.exportEnvelope startedConfig).reload
          = .error "verified plan runtime envelope payload digest mismatch." :=
  ⟨compileGoal_sampleDraft, _, create_startedConfig, startedRuntime,
    startNode_startedRuntime, startedRuntime_collisionFree, fromEnvelope_startedRuntime⟩

end OperatorRuntime.Plan
