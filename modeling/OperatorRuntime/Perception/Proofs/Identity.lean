/-
Which node a claim is at. Nodes of a scene never come to share a semantic
identifier, and no node has two claims of one correlation key. Beside the
file there is a log of the observations that were written; a retained claim
is at the node of its observation's identifier as long as no observation
that brings a new identifier finds a node of another one that wins by
labels and bounds (`StaysTogether`): the code takes it for that node.
-/
import Mathlib.Data.List.Nodup
import Mathlib.Tactic.Linarith
import OperatorRuntime.Lib.Passes
import OperatorRuntime.Lib.Runs
import OperatorRuntime.Perception.PerceptionGraph

namespace OperatorRuntime.Perception

open Lib

variable {platform : Platform} {now : ClockReading} {state t : PerceptionState}
  {observation : NormalizedObservation} {drawn : Drawn}

-- ===== resolution

/-- A node of the scene reaches 0.55 and leads every other one that does by
0.15. -/
structure Wins (platform : Platform) (state : PerceptionState)
    (observation : NormalizedObservation) (place : Nat) (node : PerceptionNode) : Prop where
  found : state.nodes[place]? = some node
  scene : node.sceneKey = observation.sceneKey
  enough : 11 / 20 ≤ score platform observation node
  leads : ∀ place' ≠ place, ∀ other, state.nodes[place']? = some other →
    other.sceneKey = observation.sceneKey → 11 / 20 ≤ score platform observation other →
    score platform observation other + 3 / 20 ≤ score platform observation node

theorem mem_candidates {item : Nat × Rat} : item ∈ candidates platform state observation
    ↔ ∃ node, state.nodes[item.1]? = some node ∧ node.sceneKey = observation.sceneKey
      ∧ item.2 = score platform observation node ∧ 11 / 20 ≤ item.2 := by
  unfold candidates
  rw [List.mem_insertionSort, List.mem_filter, List.mem_map, decide_eq_true_eq]
  constructor
  · rintro ⟨⟨⟨node, place⟩, hfound, rfl⟩, henough⟩
    obtain ⟨hplace, hscene⟩ := List.mem_filter.1 hfound
    exact ⟨node, List.mem_zipIdx_iff_getElem?.1 hplace, beq_iff_eq.1 hscene, rfl, henough⟩
  · rintro ⟨node, hplace, hscene, hscore, henough⟩
    refine ⟨⟨(node, item.1), List.mem_filter.2 ⟨?_, beq_iff_eq.2 hscene⟩, ?_⟩, henough⟩
    · exact List.mem_zipIdx_iff_getElem?.2 hplace
    · rw [← hscore]

theorem candidates_sorted (platform : Platform) (state : PerceptionState)
    (observation : NormalizedObservation) :
    (candidates platform state observation).Pairwise fun a b => b.2 ≤ a.2 := by
  have : Std.Total fun a b : Nat × Rat => b.2 ≤ a.2 := ⟨fun a b => le_total b.2 a.2⟩
  have : IsTrans (Nat × Rat) fun a b => b.2 ≤ a.2 := ⟨fun _ _ _ hab hbc => hbc.trans hab⟩
  exact List.pairwise_insertionSort _ _

/-- The first candidate wins when no other one comes within 0.15 of it. -/
theorem wins_of_first {first : Nat × Rat} {rest : List (Nat × Rat)}
    (hfirst : candidates platform state observation = first :: rest)
    (hlead : ∀ second ∈ rest, second.2 + 3 / 20 ≤ first.2) :
    ∃ node, Wins platform state observation first.1 node := by
  obtain ⟨node, hfound, hscene, hscore, henough⟩ :=
    mem_candidates.1 (by rw [hfirst]; exact List.mem_cons_self ..)
  refine ⟨node, hfound, hscene, hscore ▸ henough, ?_⟩
  intro place' hne other hother hscene' henough'
  have hin : (place', score platform observation other) ∈ first :: rest := by
    rw [← hfirst]
    exact mem_candidates.2 ⟨other, hother, hscene', rfl, henough'⟩
  rcases List.mem_cons.1 hin with heq | hrest
  · exact absurd (congrArg Prod.fst heq) hne
  · rw [← hscore]
    exact hlead _ hrest

/-- No node of the scene has the identifier of the observation. -/
def Unclaimed (state : PerceptionState) (observation : NormalizedObservation) : Prop :=
  ∀ s, observation.semanticId = some s →
    ∀ node ∈ state.nodes, node.sceneKey = observation.sceneKey → node.semanticId ≠ some s

theorem unclaimed_of_findIdx (h : (state.nodes.findIdx? fun node =>
      observation.semanticId.isSome && node.sceneKey == observation.sceneKey
        && node.semanticId == observation.semanticId) = none) : Unclaimed state observation := by
  intro s hs node hnode hscene hsame
  have hnot := List.findIdx?_eq_none_iff.1 h node hnode
  rw [hs, hsame, hscene] at hnot
  simp at hnot

variable {place : Nat}

theorem resolveNode_some (h : resolveNode platform state observation = some place) :
    ∃ node, state.nodes[place]? = some node ∧ node.sceneKey = observation.sceneKey
    ∧ ((observation.semanticId ≠ none ∧ node.semanticId = observation.semanticId)
      ∨ Unclaimed state observation ∧ Wins platform state observation place node) := by
  unfold resolveNode at h
  dsimp only at h
  split at h
  · next i hfound =>
    cases h
    obtain ⟨hlt, hp, -⟩ := List.findIdx?_eq_some_iff_getElem.1 hfound
    simp only [Bool.and_eq_true, beq_iff_eq] at hp
    refine ⟨_, List.getElem?_eq_getElem hlt, hp.1.2, .inl ⟨?_, hp.2⟩⟩
    exact Option.isSome_iff_ne_none.1 hp.1.1
  · next hfound =>
    have hunclaimed := unclaimed_of_findIdx hfound
    have hsorted := candidates_sorted platform state observation
    split at h
    · next only honly =>
      cases h
      obtain ⟨node, hwins⟩ := wins_of_first honly fun _ hin => (nomatch hin)
      exact ⟨node, hwins.found, hwins.scene, .inr ⟨hunclaimed, hwins⟩⟩
    · next first second rest hfirst =>
      split at h
      · next hlead =>
        cases h
        rw [hfirst] at hsorted
        obtain ⟨-, hsecond⟩ := List.pairwise_cons.1 hsorted
        obtain ⟨node, hwins⟩ := wins_of_first hfirst fun item hin => by
          have hle : item.2 ≤ second.2 := by
            rcases List.mem_cons.1 hin with rfl | hin
            · exact le_refl _
            · exact (List.pairwise_cons.1 hsecond).1 item hin
          linarith
        exact ⟨node, hwins.found, hwins.scene, .inr ⟨hunclaimed, hwins⟩⟩
      · cases h
    · cases h

theorem resolveNode_none (h : resolveNode platform state observation = none) :
    Unclaimed state observation := by
  unfold resolveNode at h
  dsimp only at h
  split at h
  · cases h
  · next hfound => exact unclaimed_of_findIdx hfound

-- ===== claims

variable {claims : List PerceptionClaim}

theorem mem_keepClaim {claim c : PerceptionClaim} (h : c ∈ keepClaim platform claims claim) :
    c = claim ∨ c ∈ claims := by
  have hsorted := (List.mem_insertionSort _).1 (List.mem_of_mem_take h)
  rcases List.mem_append.1 hsorted with hold | hnew
  · exact .inr (List.mem_of_mem_eraseP hold)
  · exact .inl (List.mem_singleton.1 hnew)

def correlationKeys (claims : List PerceptionClaim) : List String :=
  claims.map PerceptionClaim.correlationKey

theorem eraseP_key {key : String} (h : (correlationKeys claims).Nodup) :
    key ∉ correlationKeys (claims.eraseP fun existing => existing.correlationKey == key) := by
  induction claims with
  | nil => simp [correlationKeys]
  | cons c claims ih =>
    rw [correlationKeys, List.map_cons, List.nodup_cons] at h
    by_cases hc : c.correlationKey = key
    · rw [List.eraseP_cons_of_pos (by rw [beq_iff_eq]; exact hc), ← hc]
      exact h.1
    · rw [List.eraseP_cons_of_neg (by rw [beq_iff_eq]; exact hc), correlationKeys, List.map_cons,
        List.mem_cons, not_or]
      exact ⟨fun heq => hc heq.symm, ih h.2⟩

theorem keepClaim_nodup {claim : PerceptionClaim} (h : (correlationKeys claims).Nodup) :
    (correlationKeys (keepClaim platform claims claim)).Nodup := by
  have herased : (correlationKeys
      (claims.eraseP fun existing => existing.correlationKey == claim.correlationKey)).Nodup :=
    (List.eraseP_sublist.map _).nodup h
  have hadded : (correlationKeys
      ((claims.eraseP fun existing => existing.correlationKey == claim.correlationKey)
        ++ [claim])).Nodup := by
    rw [correlationKeys, List.map_append]
    apply herased.append (List.nodup_singleton _)
    intro key hkey hclaim
    rw [List.mem_singleton.1 hclaim] at hkey
    exact eraseP_key h hkey
  have hsorted := ((List.perm_insertionSort (fun a b : PerceptionClaim =>
    platform.localeCompare b.observedAt.isoText a.observedAt.isoText ≤ 0) _).map
      PerceptionClaim.correlationKey).nodup_iff.2 hadded
  exact ((List.take_sublist _ _).map _).nodup hsorted

-- ===== application

/-- Two nodes of one scene do not have one semantic identifier. -/
def Apart (a b : PerceptionNode) : Prop :=
  a.sceneKey = b.sceneKey → ∀ s, a.semanticId = some s → b.semanticId ≠ some s

theorem Apart.symm {a b : PerceptionNode} (h : Apart a b) : Apart b a :=
  fun hscene s hb ha => h hscene.symm s ha hb

/-- An observation whose identifier no node of the scene has yet finds no
node of another identifier that wins. -/
def Stays (platform : Platform) (state : PerceptionState) (observation : NormalizedObservation) :
    Prop :=
  Unclaimed state observation → ∀ s, observation.semanticId = some s →
    ∀ place node, Wins platform state observation place node → node.semanticId = none

/-- What an observation does: it goes to one node, old or new, and the other
nodes are as they were. -/
structure Applied (platform : Platform) (state : PerceptionState)
    (observation : NormalizedObservation) (drawn : Drawn) (t : PerceptionState) where
  before : List PerceptionNode
  node : PerceptionNode
  after : List PerceptionNode
  claim : PerceptionClaim
  id : claim.id = drawn.claimId
  nodes : t.nodes = before ++ attach platform observation claim node :: after
  others : (before ++ after).Sublist state.nodes
  scene : node.sceneKey = observation.sceneKey
  old : node ∈ state.nodes ∨ node.claims = []
  apart : state.nodes.Pairwise Apart →
    ∀ other ∈ before ++ after, Apart (attach platform observation claim node) other
  own : Stays platform state observation → ∀ s, observation.semanticId = some s →
      (attach platform observation claim node).semanticId = some s

theorem attach_semanticId_of_some {claim : PerceptionClaim} {node : PerceptionNode} {s : String}
    (h : node.semanticId = some s) : (attach platform observation claim node).semanticId = some s := by
  show node.semanticId.orElse _ = some s
  rw [h]
  rfl

theorem attach_semanticId_of_none {claim : PerceptionClaim} {node : PerceptionNode}
    (h : node.semanticId = none) :
    (attach platform observation claim node).semanticId = observation.semanticId := by
  show node.semanticId.orElse _ = _
  rw [h]
  rfl

theorem apart_of_unclaimed {claim : PerceptionClaim} {node other : PerceptionNode}
    (hscene : node.sceneKey = observation.sceneKey) (hunclaimed : Unclaimed state observation)
    (hother : other ∈ state.nodes) (hapart : node.semanticId ≠ none → Apart node other) :
    Apart (attach platform observation claim node) other := by
  intro hsame s hs
  cases hnode : node.semanticId with
  | none =>
    rw [attach_semanticId_of_none hnode] at hs
    exact hunclaimed s hs other hother ((hsame : node.sceneKey = other.sceneKey).symm.trans hscene)
  | some own =>
    rw [attach_semanticId_of_some hnode] at hs
    exact hapart (by rw [hnode]; simp) hsame s (hnode.trans hs)

theorem applied_old {claim : PerceptionClaim} (hid : claim.id = drawn.claimId)
    (h : resolveNode platform state observation = some place) :
    Nonempty (Applied platform state observation drawn
      { nodes := state.nodes.modify place (attach platform observation claim) }) := by
  obtain ⟨node, hnode, hscene, hfound⟩ := resolveNode_some h
  obtain ⟨hlt, hget⟩ := List.getElem?_eq_some_iff.1 hnode
  obtain ⟨before, found, after, hsplit, hlength, hmodify⟩ :=
    List.exists_of_modify (attach platform observation claim) hlt
  have hfoundNode : found = node := by
    rw [hsplit, ← hlength, List.getElem?_append_right (Nat.le_refl _), Nat.sub_self] at hnode
    exact Option.some.inj hnode
  subst hfoundNode
  refine ⟨{ before, node := found, after, claim, id := hid, nodes := hmodify, others := ?_, scene := hscene
            old := .inl (by rw [hsplit]; simp), apart := ?_, own := ?_ }⟩
  · rw [hsplit]
    exact List.Sublist.append (List.Sublist.refl _) (List.sublist_cons_self ..)
  · intro hpairwise other hother
    have hfirst : (found :: (before ++ after)).Pairwise Apart := by
      rw [hsplit] at hpairwise
      exact (List.pairwise_middle fun h => h.symm).1 hpairwise
    have hapart : Apart found other := (List.pairwise_cons.1 hfirst).1 other hother
    rcases hfound with ⟨hsome, hsame⟩ | ⟨hunclaimed, -⟩
    · obtain ⟨s, hs⟩ := Option.ne_none_iff_exists'.1 hsome
      intro hsc r hr
      rw [attach_semanticId_of_some (hsame.trans hs)] at hr
      exact hapart hsc r ((hsame.trans hs).trans hr)
    · refine apart_of_unclaimed hscene hunclaimed ?_ fun _ => hapart
      rw [hsplit]
      exact (List.Sublist.append (List.Sublist.refl _) (List.sublist_cons_self ..)).subset hother
  · intro hstays s hs
    rcases hfound with ⟨-, hsame⟩ | ⟨hunclaimed, hwins⟩
    · exact attach_semanticId_of_some (hsame.trans hs)
    · exact (attach_semanticId_of_none (hstays hunclaimed s hs place found hwins)).trans hs

theorem applied_new {claim : PerceptionClaim} (hid : claim.id = drawn.claimId)
    (h : resolveNode platform state observation = none) :
    Nonempty (Applied platform state observation drawn
      { nodes := state.nodes ++ [attach platform observation claim
          { id := drawn.nodeId
            sceneKey := observation.sceneKey
            semanticId := observation.semanticId
            claims := []
            createdAt := claim.observedAt
            updatedAt := claim.observedAt }] }) := by
  refine ⟨{ before := state.nodes, node := _, after := [], claim, id := hid, nodes := rfl
            others := by rw [List.append_nil], scene := rfl, old := .inr rfl
            apart := ?_, own := ?_ }⟩
  · intro _ other hother hscene s hs
    rw [List.append_nil] at hother
    have hsemantic : observation.semanticId = some s := by
      cases hobserved : observation.semanticId with
      | none =>
        rw [attach_semanticId_of_none hobserved, hobserved] at hs
        cases hs
      | some own =>
        rw [attach_semanticId_of_some (s := own) hobserved] at hs
        exact hs
    exact resolveNode_none h s hsemantic other hother (Eq.symm hscene)
  · intro _ s hs
    exact attach_semanticId_of_some (s := s) hs

theorem applyObservation_applied
    (h : applyObservation platform now state (observation, drawn) = .ok (t, place)) :
    Nonempty (Applied platform state observation drawn t) := by
  unfold applyObservation at h
  dsimp only at h
  split at h
  · next found hfound =>
    simp only [bind_eq_ok] at h
    obtain ⟨observedAt, -, expiresAt, -, h⟩ := h
    cases h
    exact applied_old rfl hfound
  · next hfound =>
    simp only [bind_eq_ok] at h
    obtain ⟨_, -, observedAt, -, expiresAt, -, h⟩ := h
    cases h
    exact applied_new rfl hfound

-- ===== invariants

/-- What holds of the nodes in every run. -/
structure GraphInv (nodes : List PerceptionNode) : Prop where
  apart : nodes.Pairwise Apart
  correlated : ∀ node ∈ nodes, (correlationKeys node.claims).Nodup

/-- Every claim of a node is one of the log, of an observation of its scene and
its identifier. -/
def Attributed (log : List (NormalizedObservation × Drawn)) (node : PerceptionNode) : Prop :=
  ∀ claim ∈ node.claims, ∃ entry ∈ log, entry.2.claimId = claim.id
    ∧ entry.1.sceneKey = node.sceneKey
    ∧ ∀ s, entry.1.semanticId = some s → node.semanticId = some s

variable {log : List (NormalizedObservation × Drawn)}

theorem Attributed.append {node : PerceptionNode} (h : Attributed log node)
    (entries : List (NormalizedObservation × Drawn)) : Attributed (log ++ entries) node := by
  intro claim hclaim
  obtain ⟨entry, hentry, hid⟩ := h claim hclaim
  exact ⟨entry, List.mem_append_left _ hentry, hid⟩

theorem GraphInv.applied (h : GraphInv state.nodes)
    (happlied : Applied platform state observation drawn t) : GraphInv t.nodes := by
  refine ⟨?_, ?_⟩
  · rw [happlied.nodes]
    refine (List.pairwise_middle fun h => h.symm).2 (List.pairwise_cons.2 ⟨?_, ?_⟩)
    · exact happlied.apart h.apart
    · exact h.apart.sublist happlied.others
  · rw [happlied.nodes]
    intro node hnode
    rcases List.mem_append.1 hnode with hbefore | hrest
    · exact h.correlated node (happlied.others.subset (List.mem_append_left _ hbefore))
    rcases List.mem_cons.1 hrest with rfl | hafter
    · apply keepClaim_nodup
      rcases happlied.old with hold | hempty
      · exact h.correlated _ hold
      · rw [hempty]
        exact List.nodup_nil
    · exact h.correlated node (happlied.others.subset (List.mem_append_right _ hafter))

theorem attributed_applied (h : ∀ node ∈ state.nodes, Attributed log node)
    (happlied : Applied platform state observation drawn t)
    (hstays : Stays platform state observation) :
    ∀ node ∈ t.nodes, Attributed (log ++ [(observation, drawn)]) node := by
  rw [happlied.nodes]
  intro node hnode
  rcases List.mem_append.1 hnode with hbefore | hrest
  · exact (h node (happlied.others.subset (List.mem_append_left _ hbefore))).append _
  rcases List.mem_cons.1 hrest with rfl | hafter
  · intro claim hclaim
    rcases mem_keepClaim hclaim with rfl | hkept
    · refine ⟨(observation, drawn), by simp, happlied.id.symm, happlied.scene.symm, ?_⟩
      exact happlied.own hstays
    · rcases happlied.old with hold | hempty
      · obtain ⟨entry, hentry, hid, hscene, hsemantic⟩ := h _ hold claim hkept
        refine ⟨entry, List.mem_append_left _ hentry, hid, hscene, ?_⟩
        intro s hs
        exact attach_semanticId_of_some (hsemantic s hs)
      · rw [hempty] at hkept
        cases hkept
  · exact (h node (happlied.others.subset (List.mem_append_right _ hafter))).append _

theorem pruned_node {node : PerceptionNode} (h : node ∈ (prune state now).nodes) :
    ∃ old ∈ state.nodes, node.sceneKey = old.sceneKey ∧ node.semanticId = old.semanticId
    ∧ node.claims.Sublist old.claims := by
  unfold prune at h
  obtain ⟨old, hold, rfl⟩ := List.mem_map.1 (List.mem_of_mem_filter h)
  exact ⟨old, hold, rfl, rfl, List.filter_sublist⟩

theorem GraphInv.prune (h : GraphInv state.nodes) (now : ClockReading) :
    GraphInv (prune state now).nodes := by
  refine ⟨?_, ?_⟩
  · have hmapped : (state.nodes.map fun node : PerceptionNode =>
        { node with claims := node.claims.filter (unexpired now) }).Pairwise Apart :=
      List.pairwise_map.2 (h.apart.imp fun hapart => hapart)
    exact hmapped.sublist List.filter_sublist
  · intro node hnode
    obtain ⟨old, hold, -, -, hclaims⟩ := pruned_node hnode
    exact (hclaims.map _).nodup (h.correlated old hold)

theorem attributed_prune (h : ∀ node ∈ state.nodes, Attributed log node) (now : ClockReading) :
    ∀ node ∈ (prune state now).nodes, Attributed log node := by
  intro node hnode claim hclaim
  obtain ⟨old, hold, hscene, hsemantic, hclaims⟩ := pruned_node hnode
  rw [hscene, hsemantic]
  exact h old hold claim (hclaims.subset hclaim)

-- ===== runs

/-- `Stays` of each observation of a batch, after the ones before it. -/
def AllStay (platform : Platform) (now : ClockReading) :
    PerceptionState → List (NormalizedObservation × Drawn) → Prop
  | _, [] => True
  | state, observation :: rest =>
    Stays platform state observation.1
      ∧ ∀ next place, applyObservation platform now state observation = .ok (next, place) →
        AllStay platform now next rest

theorem applyAll_inv {batch : List (NormalizedObservation × Drawn)} {places : List Nat}
    (hinv : GraphInv state.nodes) (h : applyAll platform now state batch = .ok (t, places)) :
    GraphInv t.nodes := by
  induction batch generalizing state places with
  | nil =>
    cases h
    exact hinv
  | cons observation rest ih =>
    simp only [applyAll, bind_eq_ok] at h
    obtain ⟨⟨next, place⟩, hfirst, ⟨last, others⟩, hrest, h⟩ := h
    cases h
    obtain ⟨happlied⟩ := applyObservation_applied hfirst
    exact ih (hinv.applied happlied) hrest

theorem applyAll_attributed {batch : List (NormalizedObservation × Drawn)} {places : List Nat}
    (hlog : ∀ node ∈ state.nodes, Attributed log node)
    (h : applyAll platform now state batch = .ok (t, places))
    (hstay : AllStay platform now state batch) :
    ∀ node ∈ t.nodes, Attributed (log ++ batch) node := by
  induction batch generalizing state places log with
  | nil =>
    cases h
    rw [List.append_nil]
    exact hlog
  | cons observation rest ih =>
    simp only [applyAll, bind_eq_ok] at h
    obtain ⟨⟨next, place⟩, hfirst, ⟨last, others⟩, hrest, h⟩ := h
    cases h
    obtain ⟨happlied⟩ := applyObservation_applied hfirst
    have hnext := attributed_applied hlog happlied hstay.1
    have hlast := ih hnext hrest (hstay.2 next place hfirst)
    rw [List.append_assoc] at hlast
    exact hlast

/-- The file, and the observations written to it so far. -/
structure World where
  state : PerceptionState
  log : List (NormalizedObservation × Drawn)

def empty : World := ⟨⟨[]⟩, []⟩

/-- A batch, the clock when it is applied. -/
structure Batch where
  now : ClockReading
  inputs : List (PerceptionObservation × Drawn)

/-- A batch is written, or nothing is: it throws, or its process ends. -/
def Steps (platform : Platform) (world : World) (batch : Batch) (world' : World) : Prop :=
  world' = world ∨ ∃ answer written normalized,
    observeBatch platform world.state batch.now batch.inputs = .ok (answer, written)
      ∧ batch.inputs.mapM normalizeDrawn = .ok normalized
      ∧ world' = ⟨written, world.log ++ normalized⟩

/-- `randomUUID` gives identifiers no claim has had. -/
def Fresh (world : World) (batch : Batch) : Prop :=
  (world.log.map (·.2.claimId) ++ batch.inputs.map (·.2.claimId)).Nodup

/-- No observation of the batch with a new identifier finds a node of another
one that wins. -/
def StaysTogether (platform : Platform) (world : World) (batch : Batch) : Prop :=
  ∀ normalized, batch.inputs.mapM normalizeDrawn = .ok normalized →
    AllStay platform batch.now (prune world.state batch.now) normalized

theorem write_eq {written : PerceptionState} (h : write platform state = .ok written) :
    written = state := by
  simp only [write, validateState, bind_eq_ok] at h
  obtain ⟨_, ⟨_, -, _, -, hstate⟩, _, -, h⟩ := h
  cases hstate
  cases h
  rfl

theorem observeBatch_ok {inputs : List (PerceptionObservation × Drawn)} {answer : List PerceptionNode}
    {written : PerceptionState}
    (h : observeBatch platform state now inputs = .ok (answer, written)) :
    ∃ normalized last places, inputs.mapM normalizeDrawn = .ok normalized
    ∧ applyAll platform now (prune state now) normalized = .ok (last, places)
    ∧ written.nodes.Perm last.nodes := by
  simp only [observeBatch, bind_eq_ok] at h
  obtain ⟨_, -, normalized, hnormalized, read, hread, ⟨last, places⟩, happlied, written', hwrite, h⟩ := h
  cases h
  have hstate : read = state := by
    simp only [validateState, bind_eq_ok] at hread
    obtain ⟨_, -, _, -, hread⟩ := hread
    cases hread
    rfl
  rw [hstate] at happlied
  refine ⟨normalized, last, places, hnormalized, happlied, ?_⟩
  rw [write_eq hwrite]
  exact List.perm_insertionSort _ _

theorem GraphInv.perm {nodes nodes' : List PerceptionNode} (h : GraphInv nodes)
    (hperm : nodes'.Perm nodes) : GraphInv nodes' := by
  refine ⟨?_, ?_⟩
  · exact (hperm.pairwise_iff fun h => h.symm).2 h.apart
  · intro node hnode
    exact h.correlated node (hperm.subset hnode)

/-- What holds of the file and the log after a batch. -/
structure WorldInv (world : World) : Prop where
  attributed : ∀ node ∈ world.state.nodes, Attributed world.log node
  distinct : (world.log.map (·.2.claimId)).Nodup

variable {world : World}

theorem GraphInv.steps {world' : World} {batch : Batch} (h : GraphInv world.state.nodes)
    (hstep : Steps platform world batch world') : GraphInv world'.state.nodes := by
  rcases hstep with rfl | ⟨answer, written, normalized, hbatch, -, rfl⟩
  · exact h
  · obtain ⟨_, last, places, -, happlied, hperm⟩ := observeBatch_ok hbatch
    exact (applyAll_inv (h.prune batch.now) happlied).perm hperm

theorem normalizeDrawn_ids {inputs : List (PerceptionObservation × Drawn)}
    {normalized : List (NormalizedObservation × Drawn)}
    (h : inputs.mapM normalizeDrawn = .ok normalized) :
    normalized.map (·.2) = inputs.map (·.2) := by
  induction inputs generalizing normalized with
  | nil =>
    cases h
    rfl
  | cons input inputs ih =>
    simp only [List.mapM_cons, bind_eq_ok] at h
    obtain ⟨first, hfirst, rest, hrest, h⟩ := h
    cases h
    simp only [normalizeDrawn, bind_eq_ok] at hfirst
    obtain ⟨observation, -, hfirst⟩ := hfirst
    cases hfirst
    rw [List.map_cons, List.map_cons, ih hrest]

theorem WorldInv.steps {world' : World} {batch : Batch} (h : WorldInv world)
    (hstep : Steps platform world batch world') (hfresh : Fresh world batch)
    (hstays : StaysTogether platform world batch) : WorldInv world' := by
  rcases hstep with rfl | ⟨answer, written, normalized, hbatch, hnormalized, rfl⟩
  · exact h
  · obtain ⟨_, last, places, hsame, happlied, hperm⟩ := observeBatch_ok hbatch
    rw [hnormalized] at hsame
    cases hsame
    refine ⟨?_, ?_⟩
    · intro node hnode
      exact applyAll_attributed (attributed_prune h.attributed batch.now) happlied
        (hstays normalized hnormalized) node (hperm.subset hnode)
    · have hids : normalized.map (·.2.claimId) = batch.inputs.map (·.2.claimId) := by
        have hdrawn := congrArg (List.map Drawn.claimId) (normalizeDrawn_ids hnormalized)
        rw [List.map_map, List.map_map] at hdrawn
        exact hdrawn
      show ((world.log ++ normalized).map (·.2.claimId)).Nodup
      rw [List.map_append, hids]
      exact hfresh

theorem graph_inv {batches : List Batch} (hrun : Run (Steps platform) empty batches world) :
    GraphInv world.state.nodes := by
  have hempty : GraphInv empty.state.nodes := ⟨List.Pairwise.nil, fun _ hnode => (nomatch hnode)⟩
  exact hrun.invariant (I := fun world => GraphInv world.state.nodes) hempty fun h hstep => h.steps hstep

/-- A claim of an observation with an identifier is at a node of the scene that
has it. -/
def AtTheirNodes (world : World) : Prop :=
  ∀ node ∈ world.state.nodes, ∀ claim ∈ node.claims, ∀ entry ∈ world.log,
    entry.2.claimId = claim.id → ∀ s, entry.1.semanticId = some s →
      node.sceneKey = entry.1.sceneKey ∧ node.semanticId = some s

theorem WorldInv.atTheirNodes (h : WorldInv world) : AtTheirNodes world := by
  intro node hnode claim hclaim entry hentry hid s hs
  obtain ⟨own, hown, hownId, hscene, hsemantic⟩ := h.attributed node hnode claim hclaim
  have hsame : entry = own :=
    List.inj_on_of_nodup_map h.distinct hentry hown (hid.trans hownId.symm)
  subst hsame
  exact ⟨hscene.symm, hsemantic s hs⟩

/-- In every run in which no observation with a new identifier finds a node
of another one that wins: no two nodes of a scene have one identifier, no node has two
claims of one key, and the claims are at the nodes of their identifiers. -/
theorem perception_identity {batches : List Batch} {world : World}
    (hrun : Run (Where (Steps platform) fun world batch =>
      Fresh world batch ∧ StaysTogether platform world batch) empty batches world) :
    GraphInv world.state.nodes ∧ AtTheirNodes world := by
  refine ⟨graph_inv (hrun.mono fun h => h.1), ?_⟩
  have hempty : WorldInv empty := ⟨fun _ hnode => (nomatch hnode), List.nodup_nil⟩
  exact (hrun.invariant hempty fun h hstep =>
    h.steps hstep.1 hstep.2.1 hstep.2.2).atTheirNodes

-- ===== samples

def samplePlatform : Platform where
  localeCompare := fun _ _ => 0
  toLocaleLowerCase := id
  fits := fun _ => true

def saveButton (semanticId : String) : PerceptionObservation where
  sceneKey := "scene"
  channel := "dom"
  source := "page"
  semanticId := some semanticId
  role := some "button"
  name := some "Save"
  text := some "Save"
  bounds := none
  state := none
  confidence := some 1
  ttlMs := none
  evidenceDigest := "aaaaaaaaaaaaaaaaaaaaaaaaaaaaaaaaaaaaaaaaaaaaaaaaaaaaaaaaaaaaaaaa"
  correlationKey := some semanticId
  coordinates := none

def firstDrawn : Drawn where
  nodeId := ⟨"00000000-0000-4000-8000-000000000000", zeros_uuid⟩
  claimId := ⟨"00000000-0000-4000-8000-000000000001", one_uuid⟩

def secondDrawn : Drawn where
  nodeId := ⟨"00000000-0000-4000-8000-000000000002", by decide⟩
  claimId := ⟨"00000000-0000-4000-8000-000000000003", by decide⟩

def epoch : ClockReading := some ⟨0, zero_instant⟩

def oneButton : Batch := ⟨epoch, [(saveButton "save-draft", firstDrawn)]⟩

/-- Two buttons of one label, which their channel tells apart. -/
def twoButtons : Batch :=
  ⟨epoch, [(saveButton "save-draft", firstDrawn), (saveButton "save-all", secondDrawn)]⟩

/-- One button with an identifier. -/
theorem perception_identity_oneButton :
    ∃ world, Run (Where (Steps samplePlatform) fun world batch =>
          Fresh world batch ∧ StaysTogether samplePlatform world batch) empty [oneButton] world
      ∧ (GraphInv world.state.nodes ∧ AtTheirNodes world)
      ∧ world.state.nodes.map (fun node => (node.semanticId, node.claims.length))
        = [(some "save-draft", 1)] := by
  have hstate : (observeBatch samplePlatform empty.state oneButton.now oneButton.inputs).toOption.map
      (fun r => r.2.nodes.map fun node => (node.semanticId, node.claims.length))
        = some [(some "save-draft", 1)] := by
    decide +kernel
  obtain ⟨⟨answer, written⟩, hbatch, hnodes⟩ := Option.map_eq_some_iff.1 hstate
  have hwritten := toOption_eq_some.1 hbatch
  obtain ⟨normalized, -, -, hnormalized, -, -⟩ := observeBatch_ok hwritten
  have hstep : Steps samplePlatform empty oneButton ⟨written, [] ++ normalized⟩ :=
    .inr ⟨answer, written, normalized, hwritten, hnormalized, rfl⟩
  have hfresh : Fresh empty oneButton := List.nodup_singleton _
  have hstays : StaysTogether samplePlatform empty oneButton := by
    intro observations hobservations
    obtain ⟨observation, rfl⟩ : ∃ observation, observations = [observation] := by
      have hlength := Lib.length_mapM hobservations
      exact List.length_eq_one_iff.1 hlength
    refine ⟨?_, fun _ _ _ => trivial⟩
    intro _ s _ place node hwins
    cases hwins.found
  have hrun : Run (Where (Steps samplePlatform) fun world batch =>
      Fresh world batch ∧ StaysTogether samplePlatform world batch) empty ([] ++ [oneButton]) _ :=
    Run.snoc Run.nil ⟨hstep, hfresh, hstays⟩
  exact ⟨_, hrun, perception_identity hrun, hnodes⟩

/-- Two buttons that differ in their identifiers only end up at one node, and
the claim of the second is at the node of the first. -/
theorem twoButtons_fused :
    ∃ world, Run (Where (Steps samplePlatform) Fresh) empty [twoButtons] world
    ∧ ¬ AtTheirNodes world := by
  have hstate : (observeBatch samplePlatform empty.state twoButtons.now twoButtons.inputs).toOption.map
      (fun r => r.2.nodes.map fun node => (node.semanticId, node.claims.map PerceptionClaim.id))
        = some [(some "save-draft", [firstDrawn.claimId, secondDrawn.claimId])] := by
    decide +kernel
  have hlog : (twoButtons.inputs.mapM normalizeDrawn).toOption.map
      (fun log => log.map fun entry => (entry.1.semanticId, entry.2.claimId))
        = some [(some "save-draft", firstDrawn.claimId), (some "save-all", secondDrawn.claimId)] := by
    decide +kernel
  obtain ⟨⟨answer, written⟩, hbatch, hnodes⟩ := Option.map_eq_some_iff.1 hstate
  obtain ⟨normalized, hnormalized, hentries⟩ := Option.map_eq_some_iff.1 hlog
  have hstep : Steps samplePlatform empty twoButtons ⟨written, [] ++ normalized⟩ :=
    .inr ⟨answer, written, normalized, toOption_eq_some.1 hbatch, toOption_eq_some.1 hnormalized,
      rfl⟩
  have hfresh : Fresh empty twoButtons := by
    show [firstDrawn.claimId, secondDrawn.claimId].Nodup
    decide
  refine ⟨_, Run.snoc Run.nil ⟨hstep, hfresh⟩, ?_⟩
  intro hnodesOf
  have hnode : (some "save-draft", [firstDrawn.claimId, secondDrawn.claimId])
      ∈ written.nodes.map fun node => (node.semanticId, node.claims.map PerceptionClaim.id) := by
    rw [hnodes]
    exact List.mem_singleton_self _
  obtain ⟨node, hmem, hshape⟩ := List.mem_map.1 hnode
  rw [Prod.mk.injEq] at hshape
  have hclaim : secondDrawn.claimId ∈ node.claims.map PerceptionClaim.id := by
    rw [hshape.2]
    simp
  obtain ⟨claim, hclaims, hid⟩ := List.mem_map.1 hclaim
  have hentry : (some "save-all", secondDrawn.claimId)
      ∈ normalized.map fun entry => (entry.1.semanticId, entry.2.claimId) := by
    rw [hentries]
    simp
  obtain ⟨entry, hlogged, hentryShape⟩ := List.mem_map.1 hentry
  rw [Prod.mk.injEq] at hentryShape
  have hwrong := (hnodesOf node hmem claim hclaims entry hlogged
    (hentryShape.2.trans hid.symm) "save-all" hentryShape.1).2
  rw [hshape.1] at hwrong
  exact absurd hwrong (by decide)

end OperatorRuntime.Perception
