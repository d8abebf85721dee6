/-
A whole call of the embedded store. On a file whose state passes
`normalizeState` and is sorted (`Sound`), `transact` does what the cells
say (`meaning`), unless the state it would write is beyond the store's
bounds; a call that throws leaves the file as it was.
-/
import OperatorRuntime.ControlPlane.Proofs.Embedded
import OperatorRuntime.Lib.Fallible

namespace OperatorRuntime.ControlPlane

open Lib

variable {env : StoreEnv}

-- ===== programs

section
variable {α β : Type}

/-- A call on a file: its answer and the file it leaves. -/
def FileM.on (x : FileM α) (s : EmbeddedState) : Result α × EmbeddedState :=
  (ExceptT.run x).run s

theorem on_pure (a : α) (s : EmbeddedState) : FileM.on (pure a) s = (.ok a, s) := rfl

theorem on_bind (x : FileM α) (f : α → FileM β) (s : EmbeddedState) :
    FileM.on (x >>= f) s = match FileM.on x s with
      | (.ok a, t) => FileM.on (f a) t
      | (.error e, t) => (.error e, t) := by
  rcases hx : FileM.on x s with ⟨_ | _, t⟩
  · have hx' : x s = (Except.error _, t) := hx
    simp only [FileM.on, ExceptT.run, StateT.run, bind, ExceptT.bind,
      ExceptT.mk, StateT.bind, hx', ExceptT.bindCont]
    rfl
  · have hx' : x s = (Except.ok _, t) := hx
    simp only [FileM.on, ExceptT.run, StateT.run, bind, ExceptT.bind,
      ExceptT.mk, StateT.bind, hx', ExceptT.bindCont]

theorem on_lift (x : Result α) (s : EmbeddedState) :
    FileM.on (liftM x) s = (x, s) := rfl

theorem on_lift_bind (x : Result α) (f : α → FileM β) (s : EmbeddedState) :
    FileM.on (liftM x >>= f) s = match x with
      | .ok a => FileM.on (f a) s
      | .error e => (.error e, s) := by
  rw [on_bind, on_lift]
  cases x with
  | error e => rfl
  | ok a => rfl

end

-- ===== validation

/-- What `normalizeRecord` checks. -/
structure RecordValid (sha256 : Hash) (r : ControlPlaneRecord) : Prop where
  size : (Json.canonicalJson (.obj r.value)).utf8ByteSize ≤ maxValueBytes
  generation : 1 ≤ r.generation ∧ r.generation ≤ maxSafeInteger
  digest : r.valueDigest = digest sha256 (.obj r.value)

/-- What `normalizeFence` checks. -/
def FenceValid (f : ControlPlaneGenerationFence) : Prop :=
  1 ≤ f.generation ∧ f.generation ≤ maxSafeInteger

theorem objectValue_obj {value fields : JsonObject} : objectValue (.obj value) = .ok fields
    ↔ fields = value ∧ (Json.canonicalJson (.obj value)).utf8ByteSize ≤ maxValueBytes := by
  rw [objectValue]
  split
  · next h =>
    constructor
    · intro hok
      exact absurd hok fail_ne_ok
    · rintro ⟨-, hle⟩
      omega
  · next h =>
    rw [Except.ok.injEq]
    constructor
    · rintro rfl
      exact ⟨rfl, by omega⟩
    · rintro ⟨rfl, -⟩
      rfl

theorem integer_nat {n m : Nat} {label : String} :
    integer (.int n) label = .ok m ↔ m = n ∧ 1 ≤ n ∧ n ≤ maxSafeInteger := by
  rw [integer, Number.safeFrom?]
  by_cases h : 1 ≤ n ∧ n ≤ maxSafeInteger
  · rw [if_pos (by omega)]
    simp only [Int.toNat_natCast, Except.ok.injEq, h, and_self, and_true]
    exact eq_comm
  · rw [if_neg (by omega)]
    constructor
    · intro hok
      exact absurd hok fail_ne_ok
    · rintro ⟨-, hrange⟩
      exact absurd hrange h

theorem normalizeRecord_eq_ok {sha256 : Hash} {r r' : ControlPlaneRecord} :
    normalizeRecord sha256 r = .ok r' ↔ r' = r ∧ RecordValid sha256 r := by
  rw [normalizeRecord]
  simp only [bind_eq_ok, objectValue_obj, integer_nat, rejectIf_eq_ok, Except.ok.injEq, not_not]
  constructor
  · rintro ⟨value, ⟨rfl, hsize⟩, generation, ⟨rfl, hrange⟩, -, hdigest, rfl⟩
    exact ⟨rfl, hsize, hrange, hdigest⟩
  · rintro ⟨rfl, h⟩
    exact ⟨_, ⟨rfl, h.size⟩, _, ⟨rfl, h.generation⟩, (), h.digest, rfl⟩

theorem normalizeFence_eq_ok {label : String} {f f' : ControlPlaneGenerationFence} :
    normalizeFence label f = .ok f' ↔ f' = f ∧ FenceValid f := by
  rw [normalizeFence]
  simp only [bind_eq_ok, integer_nat, Except.ok.injEq, FenceValid]
  constructor
  · rintro ⟨generation, ⟨rfl, hrange⟩, rfl⟩
    exact ⟨rfl, hrange⟩
  · rintro ⟨rfl, h⟩
    exact ⟨_, ⟨rfl, h⟩, rfl⟩

theorem addDistinct_eq_ok {code : ErrorCode} {message : String} {keys rks out : List String} :
    addDistinct code message keys rks = .ok out
    ↔ rks.Nodup ∧ (∀ rk ∈ rks, rk ∉ keys) ∧ out = rks.reverse ++ keys := by
  induction rks generalizing keys with
  | nil => simp [addDistinct, eq_comm]
  | cons rk rks ih =>
    rw [addDistinct]
    split
    · next hin =>
      constructor
      · intro hok
        exact absurd hok fail_ne_ok
      · rintro ⟨-, hnot, -⟩
        exact absurd hin (hnot rk (List.mem_cons_self ..))
    · next hnot =>
      rw [ih]
      simp only [List.nodup_cons, List.mem_cons, forall_eq_or_imp, not_or,
        List.reverse_cons, List.append_assoc, List.singleton_append]
      constructor
      · rintro ⟨hnd, hdis, rfl⟩
        exact ⟨⟨fun hin => (hdis rk hin).1 rfl, hnd⟩, ⟨hnot, fun x hx => (hdis x hx).2⟩, rfl⟩
      · rintro ⟨⟨hrk, hnd⟩, ⟨-, hdis⟩, rfl⟩
        refine ⟨hnd, fun x hx => ⟨?_, hdis x hx⟩, rfl⟩
        rintro rfl
        exact hrk hx

/-- Every item is in order and no key stands twice. -/
structure StateValid (env : StoreEnv) (s : EmbeddedState) : Prop where
  records : ∀ r ∈ s.records, RecordValid env.sha256 r
  fences : ∀ f ∈ s.tombstones, FenceValid f
  disjoint : Disjoint s.records s.tombstones

/-- Both collections are within `normalizeState`'s bounds. -/
def Bounded (s : EmbeddedState) : Prop :=
  s.records.length ≤ maxItems ∧ s.tombstones.length ≤ maxItems

variable {s : EmbeddedState}

theorem StateValid.normalizeState_eq (h : StateValid env s) :
    (Bounded s → normalizeState env s = .ok s) ∧ (¬ Bounded s → ∃ e : OperatorError,
        normalizeState env s = .error e ∧ e.code = .controlPlaneStoreCorrupt) := by
  have hrecords : s.records.mapM (normalizeRecord env.sha256) = .ok s.records :=
    (mapM_eq_ok normalizeRecord_eq_ok).2 ⟨rfl, h.records⟩
  have hfences : s.tombstones.mapM (normalizeFence "tombstone") = .ok s.tombstones :=
    (mapM_eq_ok normalizeFence_eq_ok).2 ⟨rfl, h.fences⟩
  have hkeys : addDistinct .controlPlaneStoreCorrupt
      "Duplicate control-plane record." [] (s.records.map (·.rk))
      = .ok (s.records.map (·.rk)).reverse := by
    rw [addDistinct_eq_ok]
    exact ⟨h.disjoint.records_nodup, by simp, by simp⟩
  have hdistinct : addDistinct .controlPlaneStoreCorrupt
      "Generation fence duplicates a live record or another fence."
      (s.records.map (·.rk)).reverse (s.tombstones.map (·.rk))
      = .ok ((s.tombstones.map (·.rk)).reverse ++ (s.records.map (·.rk)).reverse) := by
    rw [addDistinct_eq_ok]
    refine ⟨h.disjoint.fences_nodup, ?_, rfl⟩
    intro rk hrk hin
    rw [List.mem_reverse] at hin
    obtain ⟨f, hf, rfl⟩ := List.mem_map.1 hrk
    obtain ⟨r, hr, hkey⟩ := List.mem_map.1 hin
    exact h.disjoint.ne hr hf hkey
  rw [normalizeState]
  constructor
  · rintro ⟨hr, hf⟩
    rw [rejectIf_of_not (by omega), ok_bind, hrecords, ok_bind, hkeys, ok_bind,
      rejectIf_of_not (by omega), ok_bind, hfences, ok_bind, hdistinct]
    rfl
  · intro hbound
    by_cases hr : s.records.length ≤ maxItems
    · have hf : maxItems < s.tombstones.length := by
        rw [Bounded] at hbound
        omega
      rw [rejectIf_of_not (by omega), ok_bind, hrecords, ok_bind, hkeys, ok_bind,
        rejectIf, if_pos hf]
      exact ⟨_, rfl, rfl⟩
    · rw [rejectIf, if_pos (by omega)]
      exact ⟨_, rfl, rfl⟩

theorem normalizeState_eq_ok {t : EmbeddedState} :
    normalizeState env s = .ok t ↔ t = s ∧ StateValid env s ∧ Bounded s := by
  constructor
  · intro hok
    rw [normalizeState] at hok
    simp only [bind_eq_ok, rejectIf_eq_ok, mapM_eq_ok normalizeRecord_eq_ok,
      mapM_eq_ok normalizeFence_eq_ok, addDistinct_eq_ok, Except.ok.injEq,
      not_lt] at hok
    obtain ⟨-, hr, records, ⟨rfl, hrecords⟩, keys, ⟨hnd, -, rfl⟩, -, hf, fences,
      ⟨rfl, hfences⟩, -, ⟨hfnd, hdis, -⟩, rfl⟩ := hok
    refine ⟨rfl, ⟨hrecords, hfences, Disjoint.mk hnd hfnd ?_⟩, hr, hf⟩
    intro r hr f hf heq
    refine hdis f.rk (List.mem_map_of_mem hf) ?_
    rw [← heq]
    simpa using List.mem_map_of_mem hr
  · rintro ⟨rfl, hvalid, hbound⟩
    exact hvalid.normalizeState_eq.1 hbound

-- ===== the loops

/-- What `normalizeMutation` ensures of a stored value. -/
def MutationValid (m : NormalizedMutation) : Prop :=
  ∀ value, m.value = some value → (Json.canonicalJson (.obj value)).utf8ByteSize ≤ maxValueBytes

theorem mutationValue_some {input : Json} {value : JsonObject}
    (h : mutationValue input = .ok (some value)) :
    (Json.canonicalJson (.obj value)).utf8ByteSize ≤ maxValueBytes := by
  cases input with
  | null => cases h
  | obj fields =>
    rw [mutationValue] at h
    · cases hv : objectValue (.obj fields) with
      | error e =>
        rw [hv] at h
        cases h
      | ok v =>
        obtain ⟨rfl, hsize⟩ := objectValue_obj.1 hv
        rw [hv] at h
        obtain rfl : v = value := by simpa [Except.map] using h
        exact hsize
    · intro hnull
      cases hnull
  | bool b => cases h
  | num t => cases h
  | str t => cases h
  | arr items => cases h

theorem normalizeMutation_valid {m : ControlPlaneMutation}
    {n : NormalizedMutation} (h : normalizeMutation m = .ok n) :
    MutationValid n := by
  rw [normalizeMutation] at h
  simp only [bind_eq_ok, Except.ok.injEq] at h
  obtain ⟨expected, -, ns, -, key, -, value, hvalue, at', -, rfl⟩ := h
  rintro v rfl
  exact mutationValue_some hvalue

/-- Every item of a pass is in order. -/
structure PassValid (env : StoreEnv) (p : Pass) : Prop where
  records : ∀ r ∈ p.records, RecordValid env.sha256 r
  fences : ∀ f ∈ p.tombstones, FenceValid f

variable {p : Pass}

theorem PassValid.applyMutation {p' : Pass} {now : Instant} {m : NormalizedMutation}
    (hv : PassValid env p) (hinv : PassInv p) (hm : MutationValid m)
    (h : applyMutation env now p m = .ok p') : PassValid env p' := by
  rw [ControlPlane.applyMutation] at h
  cases hvalue : m.value with
  | none =>
    rw [hvalue] at h
    rw [← Except.ok.inj h, deleteRecord]
    split
    · exact hv
    · next position current hcur =>
      obtain ⟨i, -, hi⟩ := Option.bind_eq_some_iff.1 hcur
      obtain ⟨r, hr, hpair⟩ := Option.map_eq_some_iff.1 hi
      obtain ⟨rfl, rfl⟩ := Prod.mk.inj hpair
      have hrin : r ∈ p.records := List.mem_of_getElem? hr
      refine ⟨fun x hx => hv.records x (List.mem_of_mem_eraseIdx hx), ?_⟩
      intro f hf
      rw [hinv.setFence_eq hrin] at hf
      rcases List.mem_append.1 hf with hf | hf
      · exact hv.fences f hf
      · rw [List.mem_singleton] at hf
        rw [hf]
        exact (hv.records r hrin).generation
  | some value =>
    rw [hvalue] at h
    simp only [bind_eq_ok, rejectIf_eq_ok, Except.ok.injEq, not_le] at h
    obtain ⟨-, hmax, rfl⟩ := h
    have hrecord : RecordValid env.sha256 (makeRecord env.sha256 m.namespace
        m.key (priorGeneration m.rk p + 1) value now m.expiresAt) :=
      ⟨hm value hvalue, ⟨Nat.le_add_left .., hmax⟩, rfl⟩
    rw [putRecord]
    split
    · refine ⟨?_, fun f hf => hv.fences f (List.mem_filter.1 hf).1⟩
      intro x hx
      rcases List.mem_append.1 hx with hx | hx
      · exact hv.records x hx
      · rw [List.mem_singleton] at hx
        rw [hx]
        exact hrecord
    · refine ⟨?_, fun f hf => hv.fences f (List.mem_filter.1 hf).1⟩
      intro x hx
      obtain ⟨j, hj⟩ := List.mem_iff_getElem?.1 hx
      rcases getElem?_set_cases hj with ⟨-, rfl⟩ | ⟨-, hold⟩
      · exact hrecord
      · exact hv.records x (List.mem_of_getElem? hold)

/-- What the keys of a state stand for. -/
def EmbeddedState.cells (s : EmbeddedState) : Cells :=
  cellAt s.records s.tombstones

theorem StateValid.applyBatch_spec (h : StateValid env s) (ms : List ControlPlaneMutation)
    (now : Instant) :
    (applyBatch env ms now s).map Pass.cells = (do
        let normalized ← ms.mapM normalizeMutation
        commit env.sha256 (Content.gone now) normalized now s.cells)
      ∧ ∀ {p}, applyBatch env ms now s = .ok p → PassInv p ∧ PassValid env p := by
  have hnd := h.disjoint.records_nodup
  have hstart : PassInv ⟨s.records, indexOf s.records, s.tombstones, []⟩ :=
    ⟨h.disjoint, indexes_indexOf hnd⟩
  rw [applyBatch]
  cases hms : ms.mapM normalizeMutation with
  | error e => exact ⟨rfl, fun hp => nomatch hp⟩
  | ok normalized =>
    have hvalid : ∀ m ∈ normalized, MutationValid m := by
      intro m hm
      obtain ⟨raw, -, hraw⟩ := exists_of_mapM_eq_ok hms hm
      exact normalizeMutation_valid hraw
    have hcheck : normalized.foldlM (checkMutation s.records (indexOf s.records) now) []
        = normalized.foldlM (checkCell (Content.gone now) s.cells) [] :=
      foldlM_congr (fun seen m _ =>
        (indexes_indexOf hnd).checkMutation_eq hnd s.tombstones seen m) []
    rw [ok_bind, ok_bind, commit, hcheck]
    cases normalized.foldlM (checkCell (Content.gone now) s.cells) [] with
    | error e => exact ⟨rfl, fun hp => nomatch hp⟩
    | ok seen =>
      exact foldlM_simulates (I := fun p => PassInv p ∧ PassValid env p)
        (fun p m hm hp => ⟨(hp.1.applyMutation_spec m).1, fun hok =>
          ⟨(hp.1.applyMutation_spec m).2 hok, hp.2.applyMutation hp.1 (hvalid m hm) hok⟩⟩)
        ⟨hstart, h.records, h.fences⟩

-- ===== transact

/-- The collation is a consistent comparator. -/
structure Collates (localeCompare : Collation) : Prop where
  total : ∀ a b, localeCompare a b ≤ 0 ∨ localeCompare b a ≤ 0
  trans : ∀ {a b c}, localeCompare a b ≤ 0 → localeCompare b c ≤ 0 → localeCompare a c ≤ 0

/-- In `localeCompare` order of the record keys. -/
def SortedByKey {α : Type} (localeCompare : Collation) (rk : α → String) (items : List α) : Prop :=
  items.Pairwise fun a b => localeCompare (rk a) (rk b) ≤ 0

theorem sorted_sortByKey {α : Type} {localeCompare : Collation}
    (hc : Collates localeCompare) (rk : α → String) (items : List α) :
    SortedByKey localeCompare rk (sortByKey localeCompare rk items) := by
  have : Std.Total fun a b : α => localeCompare (rk a) (rk b) ≤ 0 :=
    ⟨fun a b => hc.total (rk a) (rk b)⟩
  have : IsTrans α fun a b => localeCompare (rk a) (rk b) ≤ 0 :=
    ⟨fun _ _ _ => hc.trans⟩
  exact List.pairwise_insertionSort _ items

theorem sortByKey_eq_self {α : Type} {localeCompare : Collation} {rk : α → String} {items : List α}
    (h : SortedByKey localeCompare rk items) : sortByKey localeCompare rk items = items :=
  h.insertionSort_eq

theorem sortByKey_perm {α : Type} (localeCompare : Collation) (rk : α → String)
    (items : List α) : (sortByKey localeCompare rk items).Perm items :=
  List.perm_insertionSort _ items

/-- A file as this store leaves it. -/
structure Sound (env : StoreEnv) (s : EmbeddedState) : Prop where
  valid : StateValid env s
  bounded : Bounded s
  records_sorted : SortedByKey env.localeCompare (·.rk) s.records
  fences_sorted : SortedByKey env.localeCompare (·.rk) s.tombstones

theorem sound_empty : Sound env EmbeddedState.empty where
  valid := ⟨fun _ h => absurd h List.not_mem_nil,
    fun _ h => absurd h List.not_mem_nil, List.nodup_nil⟩
  bounded := ⟨Nat.zero_le _, Nat.zero_le _⟩
  records_sorted := List.Pairwise.nil
  fences_sorted := List.Pairwise.nil

def meaning (env : StoreEnv) (ms : List ControlPlaneMutation) (now : IsoText)
    (cells : Cells) : Result (Cells × List ControlPlaneRecord) :=
  do
    checkBatch ms
    let now ← iso now "now"
    let normalized ← ms.mapM normalizeMutation
    commit env.sha256 (Content.gone now) normalized now cells

/-- What `transact` writes after its loops. -/
def Pass.state (env : StoreEnv) (p : Pass) : EmbeddedState :=
  { records := sortByKey env.localeCompare (·.rk) p.records
    tombstones := sortByKey env.localeCompare (·.rk) p.tombstones }

theorem PassInv.state_cells (h : PassInv p) : (p.state env).cells = p.cells.1 :=
  h.disjoint.cellAt_perm (sortByKey_perm ..) (sortByKey_perm ..)

theorem PassInv.state_valid (h : PassInv p) (hv : PassValid env p) :
    StateValid env (p.state env) where
  records := fun r hr => hv.records r ((sortByKey_perm ..).mem_iff.1 hr)
  fences := fun f hf => hv.fences f ((sortByKey_perm ..).mem_iff.1 hf)
  disjoint := h.disjoint.perm (sortByKey_perm ..) (sortByKey_perm ..)

theorem Sound.on_read_bind {α : Type} (h : Sound env s) (f : EmbeddedState → FileM α) :
    FileM.on (read env >>= f) s = FileM.on (f s) s := by
  have hread : FileM.on (read env) s = (normalizeState env s, s) := rfl
  rw [on_bind, hread, normalizeState_eq_ok.2 ⟨rfl, h.valid, h.bounded⟩]

theorem StateValid.on_write {t : EmbeddedState} (h : StateValid env t) :
    (Bounded t ∧ env.fits t = true ∧ FileM.on (write env t) s = (.ok (), t))
    ∨ (¬ (Bounded t ∧ env.fits t = true) ∧ ∃ e : OperatorError, e.code = .controlPlaneStoreCorrupt
        ∧ FileM.on (write env t) s = (.error e, s)) := by
  rw [write, on_lift_bind]
  by_cases hb : Bounded t
  · rw [h.normalizeState_eq.1 hb]
    by_cases hf : env.fits t = true
    · refine .inl ⟨hb, hf, ?_⟩
      simp only [on_lift_bind, rejectIf, hf, Bool.true_eq_false, if_false]
      rfl
    · refine .inr ⟨fun hboth => hf hboth.2, ?_⟩
      rw [Bool.not_eq_true] at hf
      simp only [on_lift_bind, rejectIf, hf, if_true, fail]
      exact ⟨_, rfl, rfl⟩
  · obtain ⟨e, he, hcode⟩ := h.normalizeState_eq.2 hb
    refine .inr ⟨fun hboth => hb hboth.1, e, hcode, ?_⟩
    rw [he]

theorem Sound.transact_spec (h : Sound env s) (hc : Collates env.localeCompare)
    (ms : List ControlPlaneMutation) (now : IsoText) :
    (∃ e, meaning env ms now s.cells = .error e ∧ FileM.on (transact env ms now) s = (.error e, s))
    ∨ ∃ at' p, now = some at' ∧ applyBatch env ms at' s = .ok p
      ∧ meaning env ms now s.cells = .ok p.cells ∧ (p.state env).cells = p.cells.1
      ∧ ((Sound env (p.state env) ∧ env.fits (p.state env) = true
          ∧ FileM.on (transact env ms now) s = (.ok p.results, p.state env))
        ∨ (¬ (Bounded (p.state env) ∧ env.fits (p.state env) = true)
          ∧ ∃ e : OperatorError, e.code = .controlPlaneStoreCorrupt
            ∧ FileM.on (transact env ms now) s = (.error e, s))) := by
  rw [transact, on_lift_bind, meaning]
  cases checkBatch ms with
  | error e => exact .inl ⟨e, rfl, rfl⟩
  | ok _ =>
    simp only [on_lift_bind, ok_bind]
    cases now with
    | none => exact .inl ⟨_, rfl, rfl⟩
    | some at' =>
      simp only [iso, ok_bind, h.on_read_bind, on_lift_bind]
      obtain ⟨hcells, hinv⟩ := h.valid.applyBatch_spec ms at'
      cases hp : applyBatch env ms at' s with
      | error e =>
        rw [hp] at hcells
        exact .inl ⟨e, hcells.symm, rfl⟩
      | ok p =>
        rw [hp] at hcells
        obtain ⟨hpass, hpv⟩ := hinv hp
        refine .inr ⟨at', p, rfl, hp, hcells.symm, hpass.state_cells, ?_⟩
        have hend := on_bind (write env (p.state env)) (fun _ => pure p.results) s
        rcases (hpass.state_valid hpv).on_write (s := s) with
          ⟨hb, hf, hw⟩ | ⟨hbound, e, hcode, hw⟩
        · refine .inl ⟨⟨hpass.state_valid hpv, hb, sorted_sortByKey hc ..,
            sorted_sortByKey hc ..⟩, hf, hend.trans ?_⟩
          rw [hw]
          rfl
        · refine .inr ⟨hbound, e, hcode, hend.trans ?_⟩
          rw [hw]

-- ===== writes that fail

/-- The answer and the file of a call, by what becomes of its one write;
`s` is the file before it. -/
def settled {α : Type} (disk : Disk) (s : EmbeddedState) :
    Result α × EmbeddedState → Result α × EmbeddedState
  | (.error e, t) => (.error e, t)
  | (.ok a, t) =>
    match disk with
    | .durable => (.ok a, t)
    | .unconfirmed => (.error writeFailed, t)
    | .lost => (.error writeFailed, s)

theorem on_write_disk (t : EmbeddedState) (disk : Disk) :
    FileM.on (write env t disk) s = settled disk s (FileM.on (write env t) s) := by
  rw [write, write, on_lift_bind, on_lift_bind]
  cases normalizeState env t with
  | error e => rfl
  | ok normalized =>
    simp only [on_lift_bind]
    cases rejectIf (env.fits normalized = false) .controlPlaneStoreCorrupt
        "Serialized state exceeds the bounded size." with
    | error e => rfl
    | ok _ => cases disk <;> rfl

theorem on_write_pure {α : Type} (t : EmbeddedState) (a : α) (disk : Disk) :
    FileM.on (do write env t disk; pure a) s
    = settled disk s (FileM.on (do write env t; pure a) s) := by
  rw [on_bind, on_bind, on_write_disk]
  rcases FileM.on (write env t) s with ⟨_ | _, u⟩
  · rfl
  · cases disk <;> rfl

/-- A transaction writes once, and last. -/
theorem on_transact_disk (ms : List ControlPlaneMutation) (now : IsoText) (disk : Disk) :
    FileM.on (transact env ms now disk) s = settled disk s (FileM.on (transact env ms now) s) := by
  rw [transact, transact, on_lift_bind, on_lift_bind]
  cases checkBatch ms with
  | error e => rfl
  | ok _ =>
    simp only [on_lift_bind]
    cases iso now "now" with
    | error e => rfl
    | ok at' =>
      have hread : FileM.on (read env) s = (normalizeState env s, s) := rfl
      simp only [on_bind (read env), hread]
      cases normalizeState env s with
      | error e => rfl
      | ok state =>
        simp only [on_lift_bind]
        cases applyBatch env ms at' state with
        | error e => rfl
        | ok pass =>
          exact on_write_pure _ pass.results disk

theorem settled_ok {α : Type} {disk : Disk} {call : Result α × EmbeddedState} {a : α}
    {t : EmbeddedState} (h : settled disk s call = (.ok a, t)) : call = (.ok a, t) := by
  rcases call with ⟨e | b, u⟩
  · cases h
  · cases disk with
    | durable => exact h
    | unconfirmed | lost => cases h

theorem settled_error {α : Type} {disk : Disk} {e : OperatorError}
    {call : Result α × EmbeddedState} {t : EmbeddedState}
    (hcall : ∀ {e t}, call = (.error e, t) → t = s) (h : settled disk s call = (.error e, t)) :
    t = s ∨ disk = .unconfirmed ∧ ∃ a, call = (.ok a, t) := by
  rcases call with ⟨e' | a, u⟩
  · cases h
    exact .inl (hcall rfl)
  · cases disk with
    | durable => cases h
    | unconfirmed =>
      cases h
      exact .inr ⟨rfl, a, rfl⟩
    | lost =>
      cases h
      exact .inl rfl

end OperatorRuntime.ControlPlane
