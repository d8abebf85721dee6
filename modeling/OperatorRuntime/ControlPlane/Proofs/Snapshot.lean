/-
A Postgres snapshot and its restore. `snapshot` lists rows in the order of
the database, `restore` sorts them with `localeCompare` before it checks
the digest: the digest matches exactly when both orders put the rows in
the same sequence.
-/
import OperatorRuntime.ControlPlane.Proofs.Equivalence
import OperatorRuntime.JsonText

namespace OperatorRuntime.ControlPlane

open Lib

variable {env : PgEnv}

-- ===== the snapshot

/-- The rows a snapshot keeps as records, in its order. -/
def Table.live (env : PgEnv) (now : Instant) (t : Table) : List Row :=
  (t.ordered env).filter fun row => !rowFenced now row

/-- The rows of which it keeps the generation. -/
def Table.fenced (env : PgEnv) (now : Instant) (t : Table) : List Row :=
  (t.ordered env).filter (rowFenced now)

theorem snapshotLoop_eq_ok {now : Instant} {rows : List Row}
    {acc acc' : List ControlPlaneRecord × List ControlPlaneGenerationFence} :
    rows.foldlM (pgSnapshotRow env now) acc = .ok acc'
    ↔ ∃ records, (rows.filter fun row => !rowFenced now row).mapM (rowToRecord env) = .ok records
        ∧ ∃ fences, (rows.filter (rowFenced now)).mapM rowFence = .ok fences
        ∧ acc' = (acc.1 ++ records, acc.2 ++ fences) := by
  induction rows generalizing acc with
  | nil =>
    simp only [List.foldlM_nil, List.filter_nil, List.mapM_nil]
    constructor
    · intro h
      rw [← Except.ok.inj h]
      exact ⟨[], rfl, [], rfl, by simp⟩
    · rintro ⟨records, hr, fences, hf, rfl⟩
      rw [← Except.ok.inj hr, ← Except.ok.inj hf, List.append_nil, List.append_nil]
      rfl
  | cons row rows ih =>
    rw [List.foldlM_cons, bind_eq_ok]
    cases hrow : rowFenced now row with
    | true =>
      simp only [pgSnapshotRow, hrow, if_true, bind_eq_ok, Except.ok.injEq,
        List.filter_cons, Bool.not_true, Bool.false_eq_true, if_false, ih,
        mapM_cons_eq_ok]
      constructor
      · rintro ⟨_, ⟨fence, hfence, rfl⟩, records, hr, fences, hf, rfl⟩
        exact ⟨records, hr, _, ⟨fence, hfence, fences, hf, rfl⟩, by simp⟩
      · rintro ⟨records, hr, _, ⟨fence, hfence, fences, hf, rfl⟩, rfl⟩
        exact ⟨_, ⟨fence, hfence, rfl⟩, records, hr, fences, hf, by simp⟩
    | false =>
      simp only [pgSnapshotRow, hrow, if_true, bind_eq_ok, Except.ok.injEq,
        List.filter_cons, Bool.not_false, Bool.false_eq_true, if_false, ih,
        mapM_cons_eq_ok]
      constructor
      · rintro ⟨_, ⟨record, hrecord, rfl⟩, records, hr, fences, hf, rfl⟩
        exact ⟨_, ⟨record, hrecord, records, hr, rfl⟩, fences, hf, by simp⟩
      · rintro ⟨_, ⟨record, hrecord, records, hr, rfl⟩, fences, hf, rfl⟩
        exact ⟨_, ⟨record, hrecord, rfl⟩, records, hr, fences, hf, by simp⟩

/-- The snapshot with these parts. -/
def snapshotOf (sha256 : Hash) (at' : Instant) (records : List ControlPlaneRecord)
    (fences : List ControlPlaneGenerationFence) : ControlPlaneSnapshot :=
  { createdAt := at', records, tombstones := some fences,
    digest := digest sha256 (snapshotBase at' records fences) }

variable {snap : ControlPlaneSnapshot}

theorem pgSnapshot_eq_ok {now : IsoText} {t : Table} : pgSnapshot env now t = .ok snap
    ↔ ∃ at', now = some at' ∧ ∃ records, (t.live env at').mapM (rowToRecord env) = .ok records
        ∧ ∃ fences, (t.fenced env at').mapM rowFence = .ok fences
        ∧ snap = snapshotOf env.sha256 at' records fences := by
  rw [pgSnapshot]
  cases now with
  | none =>
    constructor
    · intro h
      cases h
    · rintro ⟨at', h, -⟩
      cases h
  | some at' =>
    simp only [iso, ok_bind, bind_eq_ok, snapshotLoop_eq_ok, List.nil_append,
      Except.ok.injEq, Option.some.injEq, exists_eq_left']
    constructor
    · rintro ⟨_, ⟨records, hr, fences, hf, rfl⟩, rfl⟩
      exact ⟨records, hr, fences, hf, rfl⟩
    · rintro ⟨records, hr, fences, hf, rfl⟩
      exact ⟨_, ⟨records, hr, fences, hf, rfl⟩, rfl⟩

variable {row : Row} {f : ControlPlaneGenerationFence}

theorem rowFence_eq_ok (h : rowFence row = .ok f) :
    row.namespace = f.namespace.val ∧ row.recordKey = f.key.val
    ∧ row.generation = f.generation ∧ FenceValid f := by
  rw [rowFence] at h
  simp only [bind_eq_ok, storedGeneration_eq_ok, Except.ok.injEq] at h
  obtain ⟨ns, hns, key, hkey, generation, hgen, rfl⟩ := h
  exact ⟨id_eq_ok hns, id_eq_ok hkey, hgen.1, hgen.2⟩

-- ===== the order of rows

/-- `ORDER BY` on a text column. -/
structure ColumnOrder (columnLe : String → String → Bool) : Prop where
  total : ∀ a b, columnLe a b = true ∨ columnLe b a = true
  trans : ∀ {a b c}, columnLe a b = true → columnLe b c = true → columnLe a c = true
  antisymm : ∀ {a b}, columnLe a b = true → columnLe b a = true → a = b

variable {a b : Row}

theorem rowLe_congr {a' b' : Row} (ha : a.pk = a'.pk) (hb : b.pk = b'.pk) :
    rowLe env a b = rowLe env a' b' := by
  rw [Row.pk, Row.pk, PrimaryKey.mk.injEq] at ha hb
  rw [rowLe, rowLe, ha.1, ha.2, hb.1, hb.2]

theorem rowLe_total (hcol : ColumnOrder env.columnLe) (a b : Row) :
    rowLe env a b = true ∨ rowLe env b a = true := by
  rw [rowLe, rowLe]
  by_cases h : a.namespace = b.namespace
  · rw [if_pos h, if_pos h.symm]
    exact hcol.total _ _
  · rw [if_neg h, if_neg (Ne.symm h)]
    exact hcol.total _ _

theorem rowLe_trans (hcol : ColumnOrder env.columnLe) {c : Row} (hab : rowLe env a b = true)
    (hbc : rowLe env b c = true) : rowLe env a c = true := by
  rw [rowLe] at hab hbc ⊢
  by_cases h₁ : a.namespace = b.namespace
  · rw [if_pos h₁] at hab
    by_cases h₂ : b.namespace = c.namespace
    · rw [if_pos h₂] at hbc
      rw [if_pos (h₁.trans h₂)]
      exact hcol.trans hab hbc
    · rw [if_neg h₂] at hbc
      rw [if_neg (h₁ ▸ h₂), h₁]
      exact hbc
  · rw [if_neg h₁] at hab
    by_cases h₂ : b.namespace = c.namespace
    · rw [if_neg (h₂ ▸ h₁), ← h₂]
      exact hab
    · rw [if_neg h₂] at hbc
      have h₃ : a.namespace ≠ c.namespace := by
        intro h
        exact h₁ (hcol.antisymm hab (h ▸ hbc))
      rw [if_neg h₃]
      exact hcol.trans hab hbc

theorem rowLe_antisymm (hcol : ColumnOrder env.columnLe) (hab : rowLe env a b = true)
    (hba : rowLe env b a = true) : a.pk = b.pk := by
  rw [rowLe] at hab hba
  by_cases h : a.namespace = b.namespace
  · rw [if_pos h] at hab
    rw [if_pos h.symm] at hba
    rw [Row.pk, Row.pk, h, hcol.antisymm hab hba]
  · rw [if_neg h] at hab
    rw [if_neg (Ne.symm h)] at hba
    exact absurd (hcol.antisymm hab hba) h

theorem ordered_perm (t : Table) : (t.ordered env).Perm t.rows :=
  List.perm_insertionSort _ t.rows

theorem ordered_pairwise (hcol : ColumnOrder env.columnLe) (t : Table) :
    (t.ordered env).Pairwise fun a b => rowLe env a b = true := by
  have : Std.Total fun a b : Row => rowLe env a b = true :=
    ⟨fun a b => rowLe_total hcol a b⟩
  have : IsTrans Row fun a b => rowLe env a b = true :=
    ⟨fun _ _ _ => rowLe_trans hcol⟩
  exact List.pairwise_insertionSort _ t.rows

theorem ordered_filter_eq (hcol : ColumnOrder env.columnLe) {t : Table}
    {p : Row → Bool} {rows : List Row} (hperm : (t.rows.filter p).Perm rows)
    (hsorted : rows.Pairwise fun a b => rowLe env a b = true) :
    (t.ordered env).filter p = rows := by
  refine List.Perm.eq_of_pairwise ?_ ((ordered_pairwise hcol t).filter p) hsorted
    (((ordered_perm t).filter p).trans hperm)
  intro a b ha hb hab hba
  refine List.inj_on_of_nodup_map t.primaryKey ?_ ?_ (rowLe_antisymm hcol hab hba)
  · exact (ordered_perm t).mem_iff.1 (List.mem_filter.1 ha).1
  · exact (List.mem_filter.1 (hperm.mem_iff.2 hb)).1

theorem pairwise_rowLe_of_pk {rows rows' : List Row} (hpk : rows'.map (·.pk) = rows.map (·.pk))
    (h : rows.Pairwise fun a b => rowLe env a b = true) :
    rows'.Pairwise fun a b => rowLe env a b = true := by
  rw [List.pairwise_iff_getElem] at h ⊢
  have hlen : rows'.length = rows.length := by
    simpa using congrArg List.length hpk
  have hget : ∀ i (hi : i < rows'.length), rows'[i].pk = (rows[i]).pk := by
    intro i hi
    have hi' := List.getElem_of_eq hpk (i := i) (by simpa using hi)
    simpa using hi'
  intro i j hi hj hij
  rw [rowLe_congr (hget i hi) (hget j hj)]
  exact h i j (hlen ▸ hi) (hlen ▸ hj) hij

-- ==== the restored table

theorem upsertRow_absent {rows : List Row} (h : ∀ r ∈ rows, r.pk ≠ row.pk) :
    upsertRow row rows = rows ++ [row] := by
  rw [upsertRow, if_neg]
  intro hany
  obtain ⟨r, hr, hpk⟩ := List.any_eq_true.1 hany
  exact h r hr (beq_iff_eq.1 hpk)

theorem foldl_upsert_rows {α : Type} (row : α → Row) {items : List α}
    {t : Table} (h : ((t.rows ++ items.map row).map (·.pk)).Nodup) :
    (items.foldl (fun t a => t.upsert (row a)) t).rows = t.rows ++ items.map row := by
  induction items generalizing t with
  | nil => simp
  | cons a items ih =>
    have hsplit : t.rows ++ (a :: items).map row = (t.rows ++ [row a]) ++ items.map row := by simp
    have habsent : ∀ r ∈ t.rows, r.pk ≠ (row a).pk := by
      intro r hr hpk
      rw [List.map_append, List.nodup_append] at h
      exact h.2.2 r.pk (List.mem_map_of_mem (f := Row.pk) hr) (row a).pk
        (by simp) hpk
    have hrows : (t.upsert (row a)).rows = t.rows ++ [row a] :=
      upsertRow_absent habsent
    rw [List.foldl_cons, ih (by rw [hrows, ← hsplit]; exact h), hrows, hsplit]

def fenceRow (sha256 : Hash) (at' : Instant) (f : ControlPlaneGenerationFence) : Row :=
  deletedRow sha256 f.namespace.val f.key.val f.generation at'

theorem FenceValid.rowFence_fenceRow (h : FenceValid f) (sha256 : Hash) (at' : Instant) :
    rowFence (fenceRow sha256 at' f) = .ok f := by
  have hgen : storedGeneration (f.generation : Int) = .ok f.generation :=
    storedGeneration_eq_ok.2 ⟨rfl, h⟩
  simp only [rowFence, fenceRow, deletedRow, id_val, ok_bind, hgen]

-- ===== the digest

variable {r : ControlPlaneRecord}

theorem wellFormed_record (h : (Json.obj r.value).WellFormed) : r.toJson.WellFormed := by
  rw [ControlPlaneRecord.toJson]
  refine .obj ?_ ?_
  · cases r.expiresAt with
    | none => simp
    | some at' => simp
  · intro field hfield
    rcases List.mem_append.1 hfield with hfield | hfield
    · simp only [List.mem_cons, List.not_mem_nil, or_false] at hfield
      rcases hfield with rfl | rfl | rfl | rfl | rfl | rfl | rfl
      · exact .num (by decide)
      · exact .str _
      · exact .str _
      · exact .num (Json.isNumberText_toString _)
      · exact .str _
      · exact h
      · exact .str _
    · obtain ⟨at', -, rfl⟩ := List.mem_map.1 hfield
      exact .str _

theorem wellFormed_fence (f : ControlPlaneGenerationFence) : f.toJson.WellFormed := by
  rw [ControlPlaneGenerationFence.toJson]
  refine .obj (by simp) ?_
  intro field hfield
  simp only [List.mem_cons, List.not_mem_nil, or_false] at hfield
  rcases hfield with rfl | rfl | rfl
  · exact .str _
  · exact .str _
  · exact .num (Json.isNumberText_toString _)

theorem wellFormed_snapshotBase (at' : Instant)
    {records : List ControlPlaneRecord} (fences : List ControlPlaneGenerationFence)
    (h : ∀ r ∈ records, (Json.obj r.value).WellFormed) :
    (snapshotBase at' records fences).WellFormed := by
  rw [snapshotBase]
  refine .obj (by simp) ?_
  intro field hfield
  simp only [List.mem_cons, List.not_mem_nil, or_false] at hfield
  rcases hfield with rfl | rfl | rfl | rfl
  · exact .num (by decide)
  · exact .str _
  · refine .arr ?_
    intro item hitem
    obtain ⟨r, hr, rfl⟩ := List.mem_map.1 hitem
    exact wellFormed_record (h r hr)
  · refine .arr ?_
    intro item hitem
    obtain ⟨f, -, rfl⟩ := List.mem_map.1 hitem
    exact wellFormed_fence f

theorem record_rk_of_canonicalize {r' : ControlPlaneRecord}
    (hwf : (Json.obj r'.value).WellFormed) (h : r.toJson.canonicalize = r'.toJson.canonicalize) :
    r.rk = r'.rk := by
  have hns : ∀ r : ControlPlaneRecord,
      r.toJson.field? "namespace" = some (.str r.namespace.val) := fun _ => rfl
  have hkey : ∀ r : ControlPlaneRecord,
      r.toJson.field? "key" = some (.str r.key.val) := fun _ => rfl
  have h₁ := Json.field_eq_of_canonicalize_eq h (wellFormed_record hwf) (hns r) (hns r')
  have h₂ := Json.field_eq_of_canonicalize_eq h (wellFormed_record hwf) (hkey r) (hkey r')
  simp only [Json.canonicalize, Json.str.injEq] at h₁ h₂
  rw [ControlPlaneRecord.rk, ControlPlaneRecord.rk, recordKey, recordKey, h₁, h₂]

theorem fence_rk_of_canonicalize {f' : ControlPlaneGenerationFence}
    (h : f.toJson.canonicalize = f'.toJson.canonicalize) : f.rk = f'.rk := by
  have hns : ∀ f : ControlPlaneGenerationFence,
      f.toJson.field? "namespace" = some (.str f.namespace.val) := fun _ => rfl
  have hkey : ∀ f : ControlPlaneGenerationFence,
      f.toJson.field? "key" = some (.str f.key.val) := fun _ => rfl
  have h₁ := Json.field_eq_of_canonicalize_eq h (wellFormed_fence f') (hns f) (hns f')
  have h₂ := Json.field_eq_of_canonicalize_eq h (wellFormed_fence f') (hkey f) (hkey f')
  simp only [Json.canonicalize, Json.str.injEq] at h₁ h₂
  rw [ControlPlaneGenerationFence.rk, ControlPlaneGenerationFence.rk, recordKey, recordKey, h₁, h₂]

theorem map_rk_of_canonicalize {α : Type} {toJson : α → Json} {rk : α → String} {xs ys : List α}
    (hrk : ∀ {a}, ∀ b ∈ ys, (toJson a).canonicalize = (toJson b).canonicalize → rk a = rk b)
    (h : (xs.map toJson).map Json.canonicalize
      = (ys.map toJson).map Json.canonicalize) : xs.map rk = ys.map rk := by
  induction xs generalizing ys with
  | nil =>
    cases ys with
    | nil => rfl
    | cons y ys => cases h
  | cons x xs ih =>
    cases ys with
    | nil => cases h
    | cons y ys =>
      obtain ⟨hxy, hrest⟩ := List.cons.inj h
      rw [List.map_cons, List.map_cons, hrk y (List.mem_cons_self ..) hxy,
        ih (fun b hb => hrk b (List.mem_cons_of_mem _ hb)) hrest]

theorem rks_of_canonicalJson {at' : Instant} {rs rs' : List ControlPlaneRecord}
    {fs fs' : List ControlPlaneGenerationFence} (hwf : ∀ r ∈ rs, (Json.obj r.value).WellFormed)
    (hwf' : ∀ r ∈ rs', (Json.obj r.value).WellFormed)
    (h : Json.canonicalJson (snapshotBase at' rs fs)
      = Json.canonicalJson (snapshotBase at' rs' fs')) :
    rs.map (·.rk) = rs'.map (·.rk) ∧ fs.map (·.rk) = fs'.map (·.rk) := by
  have hbase' := wellFormed_snapshotBase at' fs' hwf'
  rw [Json.canonicalJson_inj (wellFormed_snapshotBase at' fs hwf) hbase'] at h
  have hrecords : ∀ rs fs, (snapshotBase at' rs fs).field? "records"
      = some (.arr (rs.map (·.toJson))) := fun _ _ => rfl
  have hfences : ∀ rs fs, (snapshotBase at' rs fs).field? "tombstones"
      = some (.arr (fs.map (·.toJson))) := fun _ _ => rfl
  have h₁ := Json.field_eq_of_canonicalize_eq h hbase' (hrecords rs fs) (hrecords rs' fs')
  have h₂ := Json.field_eq_of_canonicalize_eq h hbase' (hfences rs fs) (hfences rs' fs')
  rw [Json.canonicalize, Json.canonicalize, Json.canonicalizeItems_eq,
    Json.canonicalizeItems_eq, Json.arr.injEq] at h₁ h₂
  constructor
  · exact map_rk_of_canonicalize
      (fun b hb => record_rk_of_canonicalize (hwf' b hb)) h₁
  · exact map_rk_of_canonicalize (fun b _ => fence_rk_of_canonicalize) h₂

theorem normalizeSnapshot_eq_ok {sha256 : Hash} {localeCompare : Collation}
    {fences : List ControlPlaneGenerationFence} (htomb : snap.tombstones = some fences)
    (hrecords : ∀ r ∈ snap.records, RecordValid sha256 r) (hfences : ∀ f ∈ fences, FenceValid f)
    (hrks : (snap.records.map (·.rk) ++ fences.map (·.rk)).Nodup)
    {out : List ControlPlaneRecord × List ControlPlaneGenerationFence} :
    normalizeSnapshot sha256 localeCompare snap = .ok out
    ↔ fences.length ≤ maxItems ∧ snap.records.length ≤ maxItems
      ∧ snap.digest = digest sha256 (snapshotBase snap.createdAt
          (sortByKey localeCompare (·.rk) snap.records) (sortByKey localeCompare (·.rk) fences))
      ∧ out = (sortByKey localeCompare (·.rk) snap.records,
          sortByKey localeCompare (·.rk) fences) := by
  have hperm := ((sortByKey_perm localeCompare (·.rk) snap.records).map
      (·.rk)).append ((sortByKey_perm localeCompare (·.rk) fences).map (·.rk))
  rw [normalizeSnapshot, htomb]
  simp only [bind_eq_ok, rejectIf_eq_ok, mapM_eq_ok normalizeRecord_eq_ok,
    mapM_eq_ok normalizeFence_eq_ok, not_or, not_lt, ne_eq, not_not,
    Except.ok.injEq]
  constructor
  · rintro ⟨-, ⟨hlf, hlr⟩, _, ⟨rfl, -⟩, _, ⟨rfl, -⟩, keys, -, -, hdigest, rfl⟩
    exact ⟨hlf, hlr, hdigest, rfl⟩
  · rintro ⟨hlf, hlr, hdigest, rfl⟩
    have hdistinct := (hperm.nodup_iff.2 hrks)
    exact ⟨(), ⟨hlf, hlr⟩, _, ⟨rfl, hrecords⟩, _, ⟨rfl, hfences⟩, _,
      addDistinct_eq_ok.2 ⟨hdistinct, fun _ _ => List.not_mem_nil, rfl⟩, (),
      hdigest, rfl⟩

-- ===== the round trip

/-- Where the database puts a row before another one, `localeCompare` of
the joined keys does not put it after. -/
def SameOrder (env : PgEnv) (rows : List Row) : Prop :=
  ∀ a ∈ rows, ∀ b ∈ rows, rowLe env a b = true → env.localeCompare a.rk b.rk ≤ 0

/-- The tables whose snapshot at an instant can be restored. -/
structure Restorable (env : PgEnv) (now : Instant) (t : Table) : Prop where
  live_bound : (t.rows.filter fun row => !rowFenced now row).length ≤ maxItems
  fenced_bound : (t.rows.filter (rowFenced now)).length ≤ maxItems
  live_order : SameOrder env (t.rows.filter fun row => !rowFenced now row)
  fenced_order : SameOrder env (t.rows.filter (rowFenced now))

theorem sameOrder_iff (hcol : ColumnOrder env.columnLe)
    (hloc : Collates env.localeCompare) (t : Table) (p : Row → Bool) :
    SameOrder env (t.rows.filter p)
    ↔ SortedByKey env.localeCompare (·.rk) ((t.ordered env).filter p) := by
  have hmem : ∀ {a}, a ∈ (t.ordered env).filter p ↔ a ∈ t.rows.filter p :=
    ((ordered_perm t).filter p).mem_iff
  have hsorted := (ordered_pairwise hcol t).filter p
  constructor
  · intro h
    refine hsorted.imp_of_mem ?_
    intro a b ha hb hab
    exact h a (hmem.1 ha) b (hmem.1 hb) hab
  · intro h a ha b hb hab
    obtain ⟨i, hi, rfl⟩ := List.mem_iff_getElem.1 (hmem.2 ha)
    obtain ⟨j, hj, rfl⟩ := List.mem_iff_getElem.1 (hmem.2 hb)
    rw [SortedByKey, List.pairwise_iff_getElem] at h
    rw [List.pairwise_iff_getElem] at hsorted
    rcases Nat.lt_trichotomy i j with hlt | rfl | hgt
    · exact h i j hi hj hlt
    · exact (hloc.total _ _).elim (fun h => h) (fun h => h)
    · -- both orders: the two rows are one
      have hpk := rowLe_antisymm hcol hab (hsorted j i hj hi hgt)
      have heq := List.inj_on_of_nodup_map t.primaryKey
        (List.mem_filter.1 ha).1 (List.mem_filter.1 hb).1 hpk
      rw [heq]
      exact (hloc.total _ _).elim (fun h => h) (fun h => h)

/-- The text under the digest of a snapshot with these parts. -/
def snapshotText (at' : Instant) (records : List ControlPlaneRecord)
    (tombstones : List ControlPlaneGenerationFence) : String :=
  Json.canonicalJson (snapshotBase at' records tombstones)

/-- The texts a snapshot's digest and its check on restore are taken of. -/
def digestedTexts (env : PgEnv) (snap : ControlPlaneSnapshot) : List String :=
  let fences := snap.tombstones.getD []
  [snapshotText snap.createdAt snap.records fences,
    snapshotText snap.createdAt (sortByKey env.localeCompare (·.rk) snap.records)
      (sortByKey env.localeCompare (·.rk) fences)]

/-- Every value of the table and of the driver's parser is a JSON value. -/
structure JsonValues (env : PgEnv) (t : Table) : Prop where
  rows : ∀ row ∈ t.rows, row.valueJson.WellFormed
  parsed : ∀ {text value}, env.jsonParse text = .ok value → value.WellFormed

theorem JsonValues.wellFormed {t : Table} (h : JsonValues env t) (hrow : row ∈ t.rows)
    (hr : rowToRecord env row = .ok r) : (Json.obj r.value).WellFormed := by
  rw [rowToRecord] at hr
  simp only [bind_eq_ok, rejectIf_eq_ok, Except.ok.injEq] at hr
  obtain ⟨json, hjson, value, hvalue, ns, -, key, -, generation, -, vd, -, -, -, rfl⟩ := hr
  have hwf : json.WellFormed := by
    have hcol := h.rows row hrow
    cases hv : row.valueJson with
    | str text =>
      rw [hv, jsonColumn] at hjson
      exact h.parsed hjson
    | _ =>
      rw [hv, jsonColumn] at hjson
      · rw [← Except.ok.inj hjson, ← hv]
        exact hcol
      · simp
  cases json with
  | obj fields =>
    obtain ⟨rfl, -⟩ := objectValue_obj.1 hvalue
    exact hwf
  | null => cases hvalue
  | bool b => cases hvalue
  | num t => cases hvalue
  | str t => cases hvalue
  | arr items => cases hvalue

/-- What a snapshot of a table consists of. -/
structure Parts (env : PgEnv) (now : Instant) (t : Table)
    (records : List ControlPlaneRecord)
    (fences : List ControlPlaneGenerationFence) : Prop where
  records_eq : (t.live env now).mapM (rowToRecord env) = .ok records
  fences_eq : (t.fenced env now).mapM rowFence = .ok fences

namespace Parts

variable {now : Instant} {t : Table} {records : List ControlPlaneRecord}
  {fences : List ControlPlaneGenerationFence}

theorem record_of (h : Parts env now t records fences) {r : ControlPlaneRecord} (hr : r ∈ records) :
    ∃ row ∈ t.rows, rowFenced now row = false ∧ rowToRecord env row = .ok r := by
  obtain ⟨row, hrow, hok⟩ := exists_of_mapM_eq_ok h.records_eq hr
  rw [Table.live, List.mem_filter] at hrow
  exact ⟨row, (ordered_perm t).mem_iff.1 hrow.1, by simpa using hrow.2, hok⟩

theorem record_valid (h : Parts env now t records fences) :
    ∀ r ∈ records, RecordValid env.sha256 r := by
  intro r hr
  obtain ⟨row, -, -, hok⟩ := h.record_of hr
  exact (rowToRecord_eq_ok hok).2.2.2.2

theorem fence_valid (h : Parts env now t records fences) : ∀ f ∈ fences, FenceValid f := by
  intro f hf
  obtain ⟨row, -, hok⟩ := exists_of_mapM_eq_ok h.fences_eq hf
  exact (rowFence_eq_ok hok).2.2.2

theorem records_pk (h : Parts env now t records fences) :
    records.map (fun r => r.toRow.pk) = (t.live env now).map (·.pk) := by
  refine map_eq_of_mapM_eq_ok h.records_eq ?_
  intro row _ r hr
  obtain ⟨hns, hkey, -⟩ := rowToRecord_eq_ok hr
  rw [Row.pk, Row.pk, hns, hkey]
  rfl

theorem fences_pk (h : Parts env now t records fences) :
    fences.map (fun f => (fenceRow env.sha256 now f).pk) = (t.fenced env now).map (·.pk) := by
  refine map_eq_of_mapM_eq_ok h.fences_eq ?_
  intro row _ f hf
  obtain ⟨hns, hkey, -⟩ := rowFence_eq_ok hf
  rw [Row.pk, Row.pk, hns, hkey]
  rfl

theorem records_rk (h : Parts env now t records fences) :
    records.map (·.rk) = (t.live env now).map (·.rk) := by
  refine map_eq_of_mapM_eq_ok h.records_eq ?_
  intro row _ r hr
  obtain ⟨hns, hkey, -⟩ := rowToRecord_eq_ok hr
  rw [Row.rk, hns, hkey]
  rfl

theorem fences_rk (h : Parts env now t records fences) :
    fences.map (·.rk) = (t.fenced env now).map (·.rk) := by
  refine map_eq_of_mapM_eq_ok h.fences_eq ?_
  intro row _ f hf
  obtain ⟨hns, hkey, -⟩ := rowFence_eq_ok hf
  rw [Row.rk, hns, hkey]
  rfl

theorem pks_nodup (h : Parts env now t records fences) : (records.map (fun r => r.toRow.pk)
      ++ fences.map (fun f => (fenceRow env.sha256 now f).pk)).Nodup := by
  rw [h.records_pk, h.fences_pk, ← List.map_append]
  have hordered : (t.ordered env).Perm t.rows := ordered_perm t
  have hsplit : (t.live env now ++ t.fenced env now).Perm (t.ordered env) :=
    List.perm_append_comm.trans (List.filter_append_perm _ _)
  exact ((hsplit.trans hordered).map (·.pk)).nodup_iff.2 t.primaryKey

theorem rks_nodup (h : Parts env now t records fences) :
    (records.map (·.rk) ++ fences.map (·.rk)).Nodup := by
  -- joined keys of identifiers are equal only under one primary key
  have hjoin : ∀ {ns key ns' key' : Id}, recordKey ns key = recordKey ns' key' →
      (⟨ns.val, key.val⟩ : PrimaryKey) = ⟨ns'.val, key'.val⟩ := by
    intro ns key ns' key' heq
    obtain ⟨rfl, rfl⟩ := recordKey_inj heq
    rfl
  have hnd := h.pks_nodup
  rw [List.nodup_append] at hnd ⊢
  obtain ⟨hr, hf, hdis⟩ := hnd
  refine ⟨?_, ?_, ?_⟩
  · rw [List.Nodup, List.pairwise_map] at hr ⊢
    exact hr.imp fun hne heq => hne (hjoin heq)
  · rw [List.Nodup, List.pairwise_map] at hf ⊢
    exact hf.imp fun hne heq => hne (hjoin heq)
  · intro x hx y hy heq
    obtain ⟨r, hr', rfl⟩ := List.mem_map.1 hx
    obtain ⟨f, hf', rfl⟩ := List.mem_map.1 hy
    exact hdis _ (List.mem_map_of_mem hr') _ (List.mem_map_of_mem hf') (hjoin heq)

def restored (env : PgEnv) (now : Instant) (records : List ControlPlaneRecord)
    (fences : List ControlPlaneGenerationFence) : Table :=
  fences.foldl (fun t f => t.upsert (fenceRow env.sha256 now f))
    (records.foldl (fun t r => t.upsert r.toRow) Table.empty)

theorem restored_rows (h : Parts env now t records fences) : (restored env now records fences).rows
    = records.map (·.toRow) ++ fences.map (fenceRow env.sha256 now) := by
  have hnd := h.pks_nodup
  have hfirst : (records.foldl (fun t r => t.upsert r.toRow) Table.empty).rows
      = records.map (·.toRow) := by
    rw [foldl_upsert_rows]
    · rfl
    · rw [List.nodup_append] at hnd
      simpa [Table.empty, Function.comp_def] using hnd.1
  rw [restored, foldl_upsert_rows, hfirst]
  rw [hfirst]
  simpa [Function.comp_def] using hnd

theorem record_live (h : Parts env now t records fences) :
    ∀ r ∈ records, rowFenced now r.toRow = false := by
  intro r hr
  obtain ⟨row, -, hfenced, hok⟩ := h.record_of hr
  rw [rowFenced, Bool.or_eq_false_iff] at hfenced
  rw [rowFenced, ControlPlaneRecord.toRow, (rowToRecord_eq_ok hok).2.2.2.1, hfenced.2]
  rfl

theorem fence_fenced (at' : Instant) (f : ControlPlaneGenerationFence) :
    rowFenced now (fenceRow env.sha256 at' f) = true := rfl

theorem restored_parts (hcol : ColumnOrder env.columnLe) (h : Parts env now t records fences) :
    Parts env now (restored env now records fences) records fences := by
  have hrecords : (records.map (·.toRow)).filter (rowFenced now) = [] := by
    rw [List.filter_eq_nil_iff]
    intro row hrow
    obtain ⟨r, hr, rfl⟩ := List.mem_map.1 hrow
    rw [h.record_live r hr]
    exact Bool.false_ne_true
  have hfences : (fences.map (fenceRow env.sha256 now)).filter
      (fun row => !rowFenced now row) = [] := by
    rw [List.filter_eq_nil_iff]
    intro row hrow
    obtain ⟨f, -, rfl⟩ := List.mem_map.1 hrow
    rw [fence_fenced]
    exact Bool.false_ne_true
  have hsorted := ordered_pairwise hcol t
  constructor
  · have hlive : (restored env now records fences).live env now = records.map (·.toRow) := by
      refine ordered_filter_eq hcol ?_ (pairwise_rowLe_of_pk ?_
        (hsorted.filter fun row => !rowFenced now row))
      · rw [h.restored_rows, List.filter_append, hfences, List.append_nil, List.filter_eq_self.2]
        intro row hrow
        obtain ⟨r, hr, rfl⟩ := List.mem_map.1 hrow
        rw [h.record_live r hr]
        rfl
      · rw [List.map_map]
        exact h.records_pk
    rw [hlive]
    exact mapM_map_eq_ok fun r hr => (h.record_valid r hr).rowToRecord_toRow
  · have hfenced : (restored env now records fences).fenced env now
        = fences.map (fenceRow env.sha256 now) := by
      refine ordered_filter_eq hcol ?_ (pairwise_rowLe_of_pk ?_ (hsorted.filter (rowFenced now)))
      · rw [h.restored_rows, List.filter_append, hrecords, List.nil_append, List.filter_eq_self.2]
        intro row hrow
        obtain ⟨f, -, rfl⟩ := List.mem_map.1 hrow
        rfl
      · rw [List.map_map]
        exact h.fences_pk
    rw [hfenced]
    exact mapM_map_eq_ok fun f hf =>
      (h.fence_valid f hf).rowFence_fenceRow env.sha256 now

theorem sorted_of_restorable (hcol : ColumnOrder env.columnLe)
    (hloc : Collates env.localeCompare) (h : Parts env now t records fences)
    (hlive : SameOrder env (t.rows.filter fun row => !rowFenced now row))
    (hfenced : SameOrder env (t.rows.filter (rowFenced now))) :
    SortedByKey env.localeCompare (·.rk) records ∧ SortedByKey env.localeCompare (·.rk) fences := by
  rw [sameOrder_iff hcol hloc] at hlive hfenced
  rw [SortedByKey, ← List.pairwise_map (f := ControlPlaneRecord.rk)
      (R := fun a b => env.localeCompare a b ≤ 0), h.records_rk, List.pairwise_map,
    SortedByKey, ← List.pairwise_map (f := ControlPlaneGenerationFence.rk)
      (R := fun a b => env.localeCompare a b ≤ 0), h.fences_rk, List.pairwise_map]
  exact ⟨hlive, hfenced⟩

theorem sameOrder_of_sorted (hcol : ColumnOrder env.columnLe)
    (hloc : Collates env.localeCompare) (h : Parts env now t records fences)
    (hr : (sortByKey env.localeCompare (·.rk) records).map (·.rk) = records.map (·.rk))
    (hf : (sortByKey env.localeCompare (·.rk) fences).map (·.rk) = fences.map (·.rk)) :
    SameOrder env (t.rows.filter fun row => !rowFenced now row)
    ∧ SameOrder env (t.rows.filter (rowFenced now)) := by
  rw [sameOrder_iff hcol hloc, sameOrder_iff hcol hloc]
  have hsr := sorted_sortByKey hloc (·.rk) records
  have hsf := sorted_sortByKey hloc (·.rk) fences
  rw [SortedByKey, ← List.pairwise_map (f := ControlPlaneRecord.rk)
    (R := fun a b => env.localeCompare a b ≤ 0), hr, h.records_rk,
    List.pairwise_map] at hsr
  rw [SortedByKey, ← List.pairwise_map (f := ControlPlaneGenerationFence.rk)
    (R := fun a b => env.localeCompare a b ≤ 0), hf, h.fences_rk,
    List.pairwise_map] at hsf
  exact ⟨hsr, hsf⟩

theorem length_live (h : Parts env now t records fences) :
    records.length = (t.rows.filter fun row => !rowFenced now row).length := by
  have hlen := congrArg List.length h.records_pk
  have hordered : (t.ordered env).Perm t.rows := ordered_perm t
  rw [List.length_map, List.length_map] at hlen
  rw [hlen]
  exact (hordered.filter _).length_eq

theorem length_fenced (h : Parts env now t records fences) :
    fences.length = (t.rows.filter (rowFenced now)).length := by
  have hlen := congrArg List.length h.fences_pk
  have hordered : (t.ordered env).Perm t.rows := ordered_perm t
  rw [List.length_map, List.length_map] at hlen
  rw [hlen]
  exact (hordered.filter _).length_eq

theorem normalize_eq_ok (h : Parts env now t records fences)
    {out : List ControlPlaneRecord × List ControlPlaneGenerationFence} :
    normalizeSnapshot env.sha256 env.localeCompare
        (snapshotOf env.sha256 now records fences) = .ok out
      ↔ fences.length ≤ maxItems ∧ records.length ≤ maxItems
        ∧ digest env.sha256 (snapshotBase now records fences) = digest env.sha256 (snapshotBase now
              (sortByKey env.localeCompare (·.rk) records)
              (sortByKey env.localeCompare (·.rk) fences))
        ∧ out = (sortByKey env.localeCompare (·.rk) records,
            sortByKey env.localeCompare (·.rk) fences) :=
  normalizeSnapshot_eq_ok rfl h.record_valid h.fence_valid h.rks_nodup

end Parts

theorem normalize_of_restore {t t' : Table} (h : pgRestoreUnchecked env snap t = (.ok (), t')) :
    ∃ out, normalizeSnapshot env.sha256 env.localeCompare snap = .ok out := by
  cases hn : normalizeSnapshot env.sha256 env.localeCompare snap with
  | ok out => exact ⟨out, rfl⟩
  | error e =>
    rw [pgRestoreUnchecked, withTransaction, hn] at h
    cases h

/-- The restore of a snapshot into an empty table, and the snapshot after. -/
theorem snapshot_restores_iff (hcol : ColumnOrder env.columnLe)
    (hloc : Collates env.localeCompare) {t : Table} (hjson : JsonValues env t)
    {now : Instant} {snap : ControlPlaneSnapshot} (hsnap : pgSnapshot env (some now) t = .ok snap)
    (hsha : Json.CollisionFree env.sha256 (digestedTexts env snap)) :
    (∃ t' again, pgRestoreUnchecked env snap Table.empty = (.ok (), t')
        ∧ pgSnapshot env (some now) t' = .ok again
        ∧ again.records = snap.records ∧ again.tombstones = snap.tombstones)
      ↔ Restorable env now t := by
  obtain ⟨at', hat, records, hr, fences, hf, rfl⟩ := pgSnapshot_eq_ok.1 hsnap
  obtain rfl := Option.some.inj hat
  have hparts : Parts env now t records fences := ⟨hr, hf⟩
  constructor
  · rintro ⟨t', again, hrestore, -⟩
    obtain ⟨out, hout⟩ := normalize_of_restore hrestore
    obtain ⟨hlf, hlr, hdigest, -⟩ := hparts.normalize_eq_ok.1 hout
    -- the digests are equal, so are the texts, and so the sequences of keys
    have htext := hsha _ (List.mem_cons_self ..) _
      (List.mem_cons_of_mem _ (List.mem_singleton.2 rfl)) hdigest
    have hwf : ∀ r ∈ records, (Json.obj r.value).WellFormed := by
      intro r hr
      obtain ⟨row, hrow, -, hok⟩ := hparts.record_of hr
      exact hjson.wellFormed hrow hok
    have hrks := rks_of_canonicalJson hwf (fun r hr =>
      hwf r ((sortByKey_perm ..).mem_iff.1 hr)) htext
    obtain ⟨hlive, hfenced⟩ :=
      hparts.sameOrder_of_sorted hcol hloc hrks.1.symm hrks.2.symm
    exact ⟨hparts.length_live ▸ hlr, hparts.length_fenced ▸ hlf, hlive, hfenced⟩
  · intro h
    obtain ⟨hsr, hsf⟩ :=
      hparts.sorted_of_restorable hcol hloc h.live_order h.fenced_order
    have hout : normalizeSnapshot env.sha256 env.localeCompare
        (snapshotOf env.sha256 now records fences) = .ok (records, fences) := by
      rw [hparts.normalize_eq_ok, sortByKey_eq_self hsr, sortByKey_eq_self hsf]
      exact ⟨hparts.length_fenced ▸ h.fenced_bound, hparts.length_live ▸ h.live_bound, rfl, rfl⟩
    have hagain := hparts.restored_parts hcol
    refine ⟨Parts.restored env now records fences, _, ?_, pgSnapshot_eq_ok.2 ⟨now, rfl,
      records, hagain.records_eq, fences, hagain.fences_eq, rfl⟩, rfl, rfl⟩
    rw [pgRestoreUnchecked, withTransaction, hout]
    rfl

/-- A text without the characters the root collation ignores here. -/
def weights (text : String) : List Nat :=
  (text.toList.filter fun c => c != '\x00').map Char.toNat

/-- Text columns in code point order; `localeCompare` as the root collation
orders lower-case letters, with U+0000 ignorable. -/
def rootPg : PgEnv where
  sha256 := sha256Utf8
  localeCompare a b :=
    if Json.unitsLe (weights a) (weights b) then
      if Json.unitsLe (weights b) (weights a) then 0 else -1
    else 1
  columnLe a b :=
    Json.unitsLe (a.toList.map Char.toNat) (b.toList.map Char.toNat)
  jsonParse text := .ok (.str text)

theorem rootPg_le (a b : String) : rootPg.localeCompare a b ≤ 0
    ↔ Json.unitsLe (weights a) (weights b) = true := by
  rw [rootPg]
  dsimp only
  split
  · next hle =>
    split
    · simpa using hle
    · simpa using hle
  · next hlt => simpa using hlt

theorem rootPg_collates : Collates rootPg.localeCompare where
  total := by
    intro a b
    rw [rootPg_le, rootPg_le]
    exact Json.unitsLe_total _ _
  trans := by
    intro a b c hab hbc
    rw [rootPg_le] at hab hbc ⊢
    exact Json.unitsLe_trans hab hbc

theorem rootPg_columnOrder : ColumnOrder rootPg.columnLe where
  total := fun a b => Json.unitsLe_total _ _
  trans := Json.unitsLe_trans
  antisymm := by
    intro a b hab hba
    have htoNat : Function.Injective Char.toNat := by
      intro c d h
      rw [← Char.ofNat_toNat c, h, Char.ofNat_toNat]
    exact String.toList_injective
      (htoNat.list_map (Json.unitsLe_antisymm hab hba))

/-- A record created and deleted under a primary key. -/
def goneRow (ns key : String) : Row :=
  deletedRow sha256Utf8 ns key 1 epoch

def goneFence (ns key : Id) : ControlPlaneGenerationFence :=
  { «namespace» := ns, key, generation := 1 }

/-- Two keys in one order for the database and for `localeCompare`. -/
def twoRows : Table := ⟨[goneRow "a" "c", goneRow "b" "a"], by decide⟩

def twoFences : List ControlPlaneGenerationFence :=
  [goneFence ⟨"a", fillSpace_isId⟩ ⟨"c", by decide⟩,
    goneFence ⟨"b", by decide⟩ ⟨"a", fillSpace_isId⟩]

/-- Two tombstones come back as they were. -/
theorem snapshot_restores_iff_twoRows :
    ∃ snap t' again, pgSnapshot rootPg (some epoch) twoRows = .ok snap
    ∧ pgRestoreUnchecked rootPg snap Table.empty = (.ok (), t')
    ∧ pgSnapshot rootPg (some epoch) t' = .ok again
    ∧ again.records = snap.records ∧ again.tombstones = snap.tombstones := by
  have hsnap : pgSnapshot rootPg (some epoch) twoRows
      = .ok (snapshotOf sha256Utf8 epoch [] twoFences) :=
    pgSnapshot_eq_ok.2 ⟨epoch, rfl, [], rfl, twoFences, rfl, rfl⟩
  have htexts : digestedTexts rootPg (snapshotOf sha256Utf8 epoch [] twoFences)
      = [snapshotText epoch [] twoFences, snapshotText epoch [] twoFences] := rfl
  have hjson : JsonValues rootPg twoRows := by
    refine ⟨?_, ?_⟩
    · have hempty : (Json.obj []).WellFormed :=
        .obj List.nodup_nil fun field h => absurd h List.not_mem_nil
      intro row hrow
      rcases List.mem_cons.1 hrow with rfl | hrow
      · exact hempty
      · rw [List.mem_singleton.1 hrow]
        exact hempty
    · intro text value h
      rw [← Except.ok.inj h]
      exact .str text
  have hsha : Json.CollisionFree rootPg.sha256
      (digestedTexts rootPg (snapshotOf sha256Utf8 epoch [] twoFences)) := by
    rw [htexts]
    intro a ha b hb _
    simp only [List.mem_cons, List.not_mem_nil, or_false, or_self] at ha hb
    rw [ha, hb]
  obtain ⟨t', again, h⟩ := (snapshot_restores_iff rootPg_columnOrder
    rootPg_collates hjson hsnap hsha).2
    ⟨by decide, by decide, by unfold SameOrder; decide,
      by unfold SameOrder; decide⟩
  exact ⟨_, t', again, hsnap, h⟩

/-- The database puts the namespace `a` first; without U+0000 the joined
key `abb` is before `ac`. -/
def crossedRows : Table := ⟨[goneRow "a" "c", goneRow "ab" "b"], by decide⟩

def crossedFences : List ControlPlaneGenerationFence :=
  [goneFence ⟨"a", fillSpace_isId⟩ ⟨"c", by decide⟩,
    goneFence ⟨"ab", by decide⟩ ⟨"b", by decide⟩]

/-- Two keys that the two orders put the other way round. -/
theorem crossed_not_restored : ∃ snap, pgSnapshot rootPg (some epoch) crossedRows = .ok snap
    ∧ (pgRestoreUnchecked rootPg snap Table.empty).1
      = fail .controlPlaneStoreInvalid "Snapshot digest mismatch." :=
  ⟨snapshotOf sha256Utf8 epoch [] crossedFences,
    pgSnapshot_eq_ok.2 ⟨epoch, rfl, [], rfl, crossedFences, rfl, rfl⟩,
    by decide +kernel⟩

end OperatorRuntime.ControlPlane
