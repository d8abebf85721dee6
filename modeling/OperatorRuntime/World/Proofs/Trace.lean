/-
`trace` finds a shortest path to a target when there is one within the depth.
The search itself is `Lib.BreadthFirst`; here are its edges, the relations that
count, and its goals. That an entity is found by its key rests on the keys of a
validated state being distinct.

The confidence a relation needs is that of the query to three decimals:
`boundedConfidence` rounds it as it rounds those it stores.
-/
import Mathlib.Data.Rat.Floor
import OperatorRuntime.Lib.Keyed
import OperatorRuntime.Lib.Passes
import OperatorRuntime.World.WorldModel

namespace OperatorRuntime.World

open Lib
open Lib.BreadthFirst (Walk)

variable {F : Type} [OfScientific F] [Mul F] [Div F] [LE F] [DecidableLE F]
  {platform : Platform F} {state : WorldModelState F} {now : ClockReading}
  {query : TraceQuery F} {key : Context} {relations : List (WorldRelation F)}

-- ===== stored keys

/-- Validated entities have distinct keys. -/
theorem validateEntities_distinct {known : List Context} {entities : List (WorldEntity F)}
    (h : validateEntities platform known entities = .ok ()) :
    (entities.map WorldEntity.key).Nodup ∧ ∀ entity ∈ entities, entity.key ∉ known := by
  induction entities generalizing known with
  | nil => exact ⟨List.nodup_nil, fun entity hin => (nomatch hin)⟩
  | cons entity entities ih =>
    rw [validateEntities] at h
    obtain ⟨label, -, h⟩ := bind_eq_ok.1 h
    split at h
    · cases h
    · next hnew =>
      split at h
      · cases h
      · obtain ⟨_, -, h⟩ := bind_eq_ok.1 h
        obtain ⟨hnodup, hother⟩ := ih h
        refine ⟨?_, ?_⟩
        · rw [List.map_cons, List.nodup_cons]
          refine ⟨?_, hnodup⟩
          intro hin
          obtain ⟨other, hin, hkey⟩ := List.mem_map.1 hin
          refine hother other hin ?_
          rw [hkey]
          exact List.mem_cons_self ..
        · intro other hin
          rcases List.mem_cons.1 hin with rfl | hin
          · exact hnew
          · exact fun hknown => hother other hin (List.mem_cons_of_mem _ hknown)

theorem readState_distinct {file : Option (WorldModelState F)}
    (h : readState platform file = .ok state) : (state.entities.map WorldEntity.key).Nodup := by
  cases file with
  | none =>
    rw [← Except.ok.inj h]
    exact List.nodup_nil
  | some stored =>
    obtain ⟨_, hvalid, h⟩ := bind_eq_ok.1 h
    rw [← Except.ok.inj h]
    unfold validateState at hvalid
    split at hvalid
    · cases hvalid
    · split at hvalid
      · cases hvalid
      · obtain ⟨_, hentities, -⟩ := bind_eq_ok.1 hvalid
        exact (validateEntities_distinct hentities).1

-- ===== targets

/-- The key of another entity than the first that is asked for, by the key or by
the type. -/
def Target (state : WorldModelState F) (query : TraceQuery F) (key : Context) : Prop :=
  key ≠ query.fromKey ∧ (query.toKey = some key
    ∨ ∃ entity ∈ state.entities, entity.key = key ∧ query.targetType = some entity.type)

omit [OfScientific F] [Mul F] [Div F] [LE F] [DecidableLE F] in
theorem isTarget_iff (hnodup : (state.entities.map WorldEntity.key).Nodup) :
    isTarget state query key = true ↔ Target state query key := by
  have htype : (query.targetType.any fun targetType =>
        (state.entities.find? fun entity => entity.key == key).any fun entity =>
          entity.type = targetType) = true
      ↔ ∃ entity ∈ state.entities, entity.key = key ∧ query.targetType = some entity.type := by
    simp only [Option.any_eq_true, decide_eq_true_eq, find?_key_eq_some hnodup]
    constructor
    · intro ⟨targetType, htarget, entity, ⟨hin, hkey⟩, htype⟩
      exact ⟨entity, hin, hkey, htype ▸ htarget⟩
    · intro ⟨entity, hin, hkey, htarget⟩
      exact ⟨entity.type, htarget, entity, ⟨hin, hkey⟩, rfl⟩
  unfold isTarget Target
  rw [Bool.and_eq_true, Bool.or_eq_true, decide_eq_true_eq, decide_eq_true_eq, htype]

-- ===== paths

/-- A path the query asks for: relations that are not expired and sure enough,
from the first key to a target, and no more of them than the depth. -/
structure Leads (state : WorldModelState F) (now : ClockReading) (query : TraceQuery F)
    (relations : List (WorldRelation F)) (key : Context) : Prop where
  counts : ∀ relation ∈ relations, relation ∈ state.relations
    ∧ isLive now relation.expiresAt = true ∧ query.minConfidence ≤ relation.confidence
  walk : Walk WorldRelation.fromKey WorldRelation.toKey state.relations query.fromKey relations key
  target : Target state query key
  within : relations.length ≤ query.maxDepth

omit [OfScientific F] [Mul F] [Div F] in
theorem walk_validRelations (first : Context) : Walk WorldRelation.fromKey WorldRelation.toKey
        (validRelations state now query.minConfidence) first relations key
      ↔ Walk WorldRelation.fromKey WorldRelation.toKey state.relations first relations key
        ∧ ∀ relation ∈ relations, relation ∈ state.relations ∧ isLive now relation.expiresAt = true
          ∧ query.minConfidence ≤ relation.confidence := by
  have hmem : ∀ relation, relation ∈ validRelations state now query.minConfidence
      ↔ relation ∈ state.relations ∧ isLive now relation.expiresAt = true
        ∧ query.minConfidence ≤ relation.confidence := by
    intro relation
    rw [validRelations, List.mem_filter, Bool.and_eq_true, decide_eq_true_eq]
  induction relations generalizing first with
  | nil => exact ⟨fun h => ⟨h, fun relation hin => (nomatch hin)⟩, fun h => h.1⟩
  | cons relation relations ih =>
    constructor
    · intro ⟨hin, hfrom, hrest⟩
      obtain ⟨hwalk, hall⟩ := (ih relation.toKey).1 hrest
      refine ⟨⟨((hmem relation).1 hin).1, hfrom, hwalk⟩, ?_⟩
      exact List.forall_mem_cons.2 ⟨(hmem relation).1 hin, hall⟩
    · intro ⟨⟨_, hfrom, hwalk⟩, hall⟩
      obtain ⟨hrelation, hall⟩ := List.forall_mem_cons.1 hall
      exact ⟨(hmem relation).2 hrelation, hfrom, (ih relation.toKey).2 ⟨hwalk, hall⟩⟩

/-- The first key is that of a stored entity. -/
def Stored (state : WorldModelState F) (key : Context) : Prop :=
  ∃ entity ∈ state.entities, entity.key = key

/-- The answer to a query: a shortest path that repeats no key, or none because
there is none. -/
def TraceAnswer (state : WorldModelState F) (now : ClockReading) (query : TraceQuery F) :
    Option (WorldPath F) → Prop
  | some path => Stored state query.fromKey ∧ (∃ key, Leads state now query path.relations key)
      ∧ path.entityKeys = query.fromKey :: path.relations.map WorldRelation.toKey
      ∧ path.entityKeys.Nodup
      ∧ ∀ relations key, Leads state now query relations key →
        path.relations.length ≤ relations.length
  | none => ¬ (Stored state query.fromKey ∧ ∃ relations key, Leads state now query relations key)

omit [OfScientific F] [Mul F] [Div F] in
/-- The search answers its query. -/
theorem tracePath_answer (hnodup : (state.entities.map WorldEntity.key).Nodup)
    (now : ClockReading) (query : TraceQuery F) :
    TraceAnswer state now query (tracePath state now query) := by
  have hstored : state.entities.any (fun entity => entity.key = query.fromKey) = true
      ↔ Stored state query.fromKey := by
    rw [List.any_eq_true]
    simp only [decide_eq_true_eq]
    rfl
  unfold tracePath
  by_cases hfrom : state.entities.any (fun entity => entity.key = query.fromKey) = true
  · rw [if_pos hfrom]
    have hanswers := BreadthFirst.search_start WorldRelation.fromKey WorldRelation.toKey
      (isTarget state query) query.maxDepth (validRelations state now query.minConfidence)
      query.fromKey
    dsimp only
    generalize BreadthFirst.search WorldRelation.fromKey WorldRelation.toKey
      (isTarget state query) query.maxDepth (validRelations state now query.minConfidence)
      ((validRelations state now query.minConfidence).length + 1)
      [⟨query.fromKey, [query.fromKey], []⟩] [query.fromKey] = found at hanswers
    cases found with
    | none =>
      intro ⟨_, relations, key, hleads⟩
      have hfar := hanswers key relations ((isTarget_iff hnodup).2 hleads.target)
        ((walk_validRelations _).2 ⟨hleads.walk, hleads.counts⟩)
      have hnear := hleads.within
      omega
    | some current =>
      obtain ⟨hreached, hgoal, hleast⟩ := hanswers
      obtain ⟨hwalk, hcounts⟩ := (walk_validRelations _).1 hreached.walk
      refine ⟨hstored.1 hfrom, ⟨current.key, ?_⟩, hreached.keys, hreached.simple, ?_⟩
      · exact ⟨hcounts, hwalk, (isTarget_iff hnodup).1 hgoal, hreached.bound⟩
      · intro relations key hleads
        exact hleast key relations ((isTarget_iff hnodup).2 hleads.target)
          ((walk_validRelations _).2 ⟨hleads.walk, hleads.counts⟩)
  · rw [if_neg hfrom]
    exact fun h => hfrom (hstored.2 h.1)

-- ===== queries

/-- What a query that is accepted asks. -/
theorem traceQuery_ok {input : TraceInput F} (h : traceQuery platform input = .ok query) :
    query.fromKey.val = input.fromKey ∧ query.toKey.map Subtype.val = input.toKey
    ∧ query.targetType.map Subtype.val = input.targetType
    ∧ input.maxDepth.getD (.int 6) = .int query.maxDepth
    ∧ query.minConfidence = platform.round (input.minConfidence.getD 0.5 * 1000.0) / 1000.0 := by
  have hcontext : ∀ {text label : String} {key : Context},
      boundedContext text label = .ok key → key.val = text := by
    intro text label key h
    unfold boundedContext at h
    split at h
    · rw [← Except.ok.inj h]
    · cases h
  have hkey : ∀ {text label : String} {key : Key},
      boundedKey text label = .ok key → key.val = text := by
    intro text label key h
    unfold boundedKey at h
    split at h
    · rw [← Except.ok.inj h]
    · cases h
  unfold traceQuery at h
  simp only [bind_eq_ok] at h
  obtain ⟨fromKey, hfrom, toKey, hto, targetType, htype, -, -, maxDepth, hdepth, minConfidence,
    hconfidence, h⟩ := h
  obtain rfl := Except.ok.inj h
  refine ⟨hcontext hfrom, ?_, ?_, ?_, ?_⟩
  · cases hinput : input.toKey with
    | none =>
      rw [hinput] at hto
      rw [← Except.ok.inj hto]
      rfl
    | some text =>
      rw [hinput] at hto
      obtain ⟨key, hkey, hto⟩ :=
        bind_eq_ok.1 (show boundedContext text "toKey" >>= (fun k => .ok (some k)) = _ from hto)
      rw [← Except.ok.inj hto, ← hcontext hkey]
      rfl
  · cases hinput : input.targetType with
    | none =>
      rw [hinput] at htype
      rw [← Except.ok.inj htype]
      rfl
    | some text =>
      rw [hinput] at htype
      obtain ⟨key, hkey', htype⟩ :=
        bind_eq_ok.1 (show boundedKey text "targetType" >>= (fun k => .ok (some k)) = _ from htype)
      rw [← Except.ok.inj htype, ← hkey hkey']
      rfl
  · dsimp only
    cases hinput : input.maxDepth.getD (.int 6) with
    | other =>
      rw [hinput] at hdepth
      cases hdepth
    | int n =>
      rw [hinput, boundedInteger] at hdepth
      split at hdepth
      · next hrange =>
        rw [← Except.ok.inj hdepth, Int.toNat_of_nonneg (by omega)]
      · cases hdepth
  · unfold boundedConfidence at hconfidence
    split at hconfidence
    · rw [← Except.ok.inj hconfidence]
    · cases hconfidence

/-- For a state and a query that pass their checks `trace` answers with a shortest
path to a target, or with none because there is none. -/
theorem trace_answers {file : Option (WorldModelState F)} {input : TraceInput F}
    (hread : readState platform file = .ok state) (hquery : traceQuery platform input = .ok query) :
    query.fromKey.val = input.fromKey ∧ query.toKey.map Subtype.val = input.toKey
    ∧ query.targetType.map Subtype.val = input.targetType
    ∧ input.maxDepth.getD (.int 6) = .int query.maxDepth
    ∧ query.minConfidence = platform.round (input.minConfidence.getD 0.5 * 1000.0) / 1000.0
    ∧ ∃ answer, trace platform file now input = .ok answer ∧ (answer.isSome = true
        ↔ Stored state query.fromKey ∧ ∃ relations key, Leads state now query relations key)
      ∧ TraceAnswer state now query answer := by
  obtain ⟨hfrom, hto, htype, hdepth, hconfidence⟩ := traceQuery_ok hquery
  refine ⟨hfrom, hto, htype, hdepth, hconfidence, tracePath state now query, ?_, ?_, ?_⟩
  · unfold trace
    rw [hread, ok_bind, hquery]
    rfl
  · have hanswer := tracePath_answer (readState_distinct hread) now query
    cases hfound : tracePath state now query with
    | none =>
      rw [hfound] at hanswer
      exact ⟨fun h => (nomatch h), fun h => absurd h hanswer⟩
    | some path =>
      rw [hfound] at hanswer
      obtain ⟨hstored, ⟨key, hleads⟩, -⟩ := hanswer
      exact ⟨fun _ => ⟨hstored, path.relations, key, hleads⟩, fun _ => rfl⟩
  · exact tracePath_answer (readState_distinct hread) now query

-- ===== rounding

def bareEntity (id : Uuid) (key : Context) : WorldEntity Rat where
  id := id
  key := key
  type := ⟨"file", by decide⟩
  scopeKey := ⟨"scope", by decide⟩
  label := "label"
  facts := []
  createdAt := ⟨0, zero_instant⟩
  updatedAt := ⟨0, zero_instant⟩

def sampleId : Uuid :=
  ⟨"00000000-0000-4000-8000-000000000000", zeros_uuid⟩

def keyA : Context :=
  ⟨"a", by decide⟩

def keyB : Context :=
  ⟨"b", by decide⟩

/-- A relation of confidence one half from `a` to `b`, until the time 10. -/
def halfRelation : WorldRelation Rat where
  id := sampleId
  fromKey := keyA
  toKey := keyB
  type := ⟨"uses", by decide⟩
  source := keyA
  domain := .filesystem
  evidenceDigest := ⟨String.ofList (List.replicate 64 '0'), zeros_hex64⟩
  confidence := 1 / 2
  observedAt := ⟨0, zero_instant⟩
  expiresAt := ⟨10, by decide⟩

def halfWorld : WorldModelState Rat where
  entities := [bareEntity sampleId keyA, bareEntity sampleId keyB]
  relations := [halfRelation]
  history := []

def fromAToB (minConfidence : Rat) : TraceInput Rat where
  fromKey := "a"
  toKey := some "b"
  targetType := none
  maxDepth := none
  minConfidence := some minConfidence

theorem boundedConfidence_plain (value : Rat) (label : String)
    (h : (0.0 : Rat) ≤ value ∧ value ≤ 1.0) :
    boundedConfidence plain value label = .ok (((value * 1000.0 + 1 / 2).floor : Rat) / 1000.0) :=
  if_pos h

theorem readState_half : readState plain (some halfWorld) = .ok halfWorld := by
  have hlabel : boundedText "label" 4096 "entity label" = .ok "label" := by rfl
  have hconfidence : ∃ value, boundedConfidence plain (1 / 2) "relation confidence" = .ok value :=
    ⟨_, boundedConfidence_plain _ _ (by decide +kernel)⟩
  obtain ⟨value, hconfidence⟩ := hconfidence
  have hentities : validateEntities plain [] halfWorld.entities = .ok () := by
    have hne : keyB ≠ keyA := by decide
    simp [halfWorld, bareEntity, validateEntities, hlabel, hne, maxFactsPerEntity]
  have hrelations : (halfWorld.relations.forM fun relation => do
      let _ ← boundedConfidence plain relation.confidence "relation confidence")
      = .ok () := by
    show (boundedConfidence plain (1 / 2) "relation confidence" >>= _) >>= _ = _
    rw [hconfidence]
    rfl
  show (validateState plain halfWorld >>= fun _ => .ok halfWorld) = _
  unfold validateState
  rw [if_neg (by decide), if_neg (by decide), hentities, ok_bind, hrelations]
  rfl

/-- The query in that world, normalized. -/
def halfQuery : TraceQuery Rat where
  fromKey := keyA
  toKey := some keyB
  targetType := none
  maxDepth := 6
  minConfidence := 1 / 2

theorem traceQuery_half : traceQuery plain (fromAToB (5004 / 10000)) = .ok halfQuery := by
  have hconfidence : boundedConfidence plain (5004 / 10000) "minConfidence" = .ok (1 / 2) := by
    rw [boundedConfidence_plain _ _ (by decide +kernel)]
    exact congrArg Except.ok (by decide +kernel)
  unfold traceQuery
  simp only [fromAToB, Option.getD_some, hconfidence]
  rfl

/-- A confidence of 0.5004 is asked for, and a path of confidence 0.5 answers. -/
theorem trace_below_minConfidence :
    trace plain (some halfWorld) (some ⟨0, by decide⟩) (fromAToB (5004 / 10000))
        = .ok (some { entityKeys := [keyA, keyB], relations := [halfRelation] })
      ∧ ¬ (5004 / 10000 : Rat) ≤ halfRelation.confidence := by
  have hvalid : validRelations halfWorld (some ⟨0, by decide⟩) halfQuery.minConfidence
      = [halfRelation] :=
    List.filter_cons_of_pos (by decide +kernel)
  constructor
  · unfold trace
    rw [readState_half, ok_bind, traceQuery_half, ok_bind]
    refine congrArg Except.ok ?_
    unfold tracePath
    rw [if_pos (by decide)]
    simp only [hvalid]
    rfl
  · decide +kernel

/-- A confidence just above a half. -/
theorem trace_answers_half :
    ∃ answer, trace plain (some halfWorld) (some ⟨0, by decide⟩) (fromAToB (5004 / 10000))
      = .ok answer ∧ (answer.isSome = true ↔ Stored halfWorld keyA
        ∧ ∃ relations key, Leads halfWorld (some ⟨0, by decide⟩) halfQuery relations key)
    ∧ TraceAnswer halfWorld (some ⟨0, by decide⟩) halfQuery answer := by
  obtain ⟨-, -, -, -, -, h⟩ := trace_answers readState_half traceQuery_half
  exact h

end OperatorRuntime.World
