/-
The Postgres store refines the cells of `Cells.lean`, with its own
notion of an expired body: `Date.parse(String(date))` drops the
milliseconds. On a table this store wrote (`TableValid`) a round of
`transact`'s loop compares and writes one cell (`pgMutation_cells`).
-/
import OperatorRuntime.ControlPlane.Record
import OperatorRuntime.ControlPlane.Postgres
import OperatorRuntime.ControlPlane.Proofs.Transact

namespace OperatorRuntime.ControlPlane

open Lib

variable {env : PgEnv} {now : Instant}

-- ===== record keys

theorem isIdChar_ne_nul {c : Char} (h : isIdChar c = true) : c ≠ '\x00' := by
  rintro rfl
  revert h
  decide

theorem Id.nul_not_mem (i : Id) : '\x00' ∉ i.val.toList := by
  intro hin
  have hid := i.2
  rw [isId, Bool.and_eq_true] at hid
  exact isIdChar_ne_nul (List.all_eq_true.1 hid.2 _ hin) rfl

private theorem append_nul_inj {a b c d : List Char} (ha : '\x00' ∉ a)
    (hc : '\x00' ∉ c) (h : a ++ '\x00' :: b = c ++ '\x00' :: d) :
    a = c ∧ b = d := by
  induction a generalizing c with
  | nil =>
    cases c with
    | nil => exact ⟨rfl, (List.cons.inj h).2⟩
    | cons x c =>
      have hx := (List.cons.inj h).1
      exact absurd (hx ▸ List.mem_cons_self ..) hc
  | cons x a ih =>
    cases c with
    | nil =>
      have hx := (List.cons.inj h).1
      exact absurd (hx ▸ List.mem_cons_self ..) ha
    | cons y c =>
      obtain ⟨hxy, htail⟩ := List.cons.inj h
      obtain ⟨rfl, rfl⟩ := ih (fun hin => ha (List.mem_cons_of_mem _ hin))
        (fun hin => hc (List.mem_cons_of_mem _ hin)) htail
      exact ⟨by rw [hxy], rfl⟩

theorem recordKey_inj {ns key ns' key' : Id}
    (h : recordKey ns key = recordKey ns' key') : ns = ns' ∧ key = key' := by
  have hlist := congrArg String.toList h
  simp only [recordKey, String.toList_append] at hlist
  have hnul : "\x00".toList = ['\x00'] := by decide
  rw [hnul, List.append_assoc, List.append_assoc, List.singleton_append,
    List.singleton_append] at hlist
  obtain ⟨hns, hkey⟩ := append_nul_inj ns.nul_not_mem ns'.nul_not_mem hlist
  exact ⟨Subtype.ext (String.toList_injective hns), Subtype.ext (String.toList_injective hkey)⟩

-- ===== the cells

/-- The joined key of a row. -/
def Row.rk (row : Row) : String :=
  row.namespace ++ "\x00" ++ row.recordKey

def rowCell (env : PgEnv) (row : Row) : Cell Content :=
  if row.isDeleted then .fence row.generation.toNat
  else
    match rowToRecord env row with
    | .ok r => .live r.generation r.content
    | .error _ => .free

/-- What the keys of a table stand for. -/
def Table.cells (env : PgEnv) (t : Table) : Cells := fun rk =>
  match t.rows.find? fun row => row.rk == rk with
  | some row => rowCell env row
  | none => .free

/-- A row as this store writes it. -/
structure RowValid (env : PgEnv) (row : Row) : Prop where
  ids : ∃ ns key : Id, row.namespace = ns.val ∧ row.recordKey = key.val
  generation : 1 ≤ row.generation ∧ row.generation ≤ maxSafeInteger
  record : row.isDeleted = false → ∃ r, rowToRecord env row = .ok r

/-- A table as this store writes it. -/
def TableValid (env : PgEnv) (t : Table) : Prop :=
  ∀ row ∈ t.rows, RowValid env row

variable {row : Row}

theorem RowValid.rk_eq (h : RowValid env row) {ns key : Id} :
    row.rk = recordKey ns key ↔ row.pk = ⟨ns.val, key.val⟩ := by
  obtain ⟨ns', key', hns, hkey⟩ := h.ids
  rw [Row.rk, Row.pk, hns, hkey]
  constructor
  · intro hrk
    obtain ⟨rfl, rfl⟩ := recordKey_inj hrk
    rfl
  · intro hpk
    rw [PrimaryKey.mk.injEq] at hpk
    rw [hpk.1, hpk.2]
    rfl

variable {t : Table}

theorem TableValid.nodup (h : TableValid env t) : (t.rows.map (·.rk)).Nodup := by
  have hpk := t.primaryKey
  rw [List.Nodup, List.pairwise_map] at hpk ⊢
  refine hpk.imp_of_mem ?_
  intro a b ha hb hne heq
  obtain ⟨ns, key, hns, hkey⟩ := (h b hb).ids
  have hbk : b.rk = recordKey ns key := by rw [Row.rk, hns, hkey]; rfl
  refine hne ?_
  rw [((h a ha).rk_eq).1 (heq.trans hbk), ((h b hb).rk_eq).1 hbk]

theorem TableValid.select_eq (h : TableValid env t) (ns key : Id) : t.select ns.val key.val
    = t.rows.find? fun row => row.rk == recordKey ns key := by
  rw [Table.select]
  cases hf : t.rows.find? fun row => row.rk == recordKey ns key with
  | none =>
    rw [find?_key_eq_none] at hf ⊢
    intro row hrow hpk
    exact hf row hrow ((h row hrow).rk_eq.2 hpk)
  | some row =>
    rw [find?_key_eq_some h.nodup] at hf
    rw [find?_key_eq_some t.primaryKey]
    exact ⟨hf.1, (h row hf.1).rk_eq.1 hf.2⟩

-- ===== rows

theorem id_val (i : Id) (label : String) : id i.val label = .ok i := by
  rw [id, dif_pos i.2]
  rfl

theorem id_eq_ok {value label : String} {i : Id} (h : id value label = .ok i) : value = i.val := by
  rw [id] at h
  split at h
  · rw [← Except.ok.inj h]
  · exact absurd h fail_ne_ok

theorem integer_eq_ok {n : Int} {m : Nat} {label : String} :
    integer (.int n) label = .ok m ↔ n = m ∧ 1 ≤ m ∧ m ≤ maxSafeInteger := by
  rw [integer]
  cases hs : (Number.int n).safeFrom? 1 with
  | none =>
    constructor
    · intro h
      exact absurd h fail_ne_ok
    · rintro ⟨rfl, hlo, hhi⟩
      rw [Number.safeFrom?, if_pos (by omega)] at hs
      cases hs
  | some k =>
    rw [Number.safeFrom?] at hs
    split at hs
    · next hrange =>
      rw [Option.some.injEq] at hs
      rw [Except.ok.injEq]
      constructor
      · rintro rfl
        omega
      · rintro ⟨rfl, -⟩
        omega
    · cases hs

theorem storedGeneration_eq_ok {n : Int} {m : Nat} :
    storedGeneration n = .ok m ↔ n = m ∧ 1 ≤ m ∧ m ≤ maxSafeInteger := by
  rw [← @integer_eq_ok n m "", storedGeneration, integer]
  cases (Number.int n).safeFrom? 1 with
  | none =>
    constructor
    · intro h
      exact absurd h fail_ne_ok
    · intro h
      exact absurd h fail_ne_ok
  | some k => rfl

variable {r : ControlPlaneRecord}

theorem RecordValid.rowToRecord_toRow (h : RecordValid env.sha256 r) :
    rowToRecord env r.toRow = .ok r := by
  simp only [rowToRecord, ControlPlaneRecord.toRow, jsonColumn, ok_bind,
    objectValue_obj.2 ⟨rfl, h.size⟩, id_val, integer_nat.2 ⟨rfl, h.generation⟩,
    sha, hex64_val]
  rw [rejectIf_of_not (not_not.2 h.digest)]
  rfl

theorem RecordValid.rowValid (h : RecordValid env.sha256 r) : RowValid env r.toRow where
  ids := ⟨r.namespace, r.key, rfl, rfl⟩
  generation := by
    have hgen := h.generation
    change 1 ≤ (r.generation : Int) ∧ (r.generation : Int) ≤ maxSafeInteger
    omega
  record := fun _ => ⟨r, h.rowToRecord_toRow⟩

theorem rowToRecord_eq_ok (h : rowToRecord env row = .ok r) :
    row.namespace = r.namespace.val ∧ row.recordKey = r.key.val
    ∧ row.generation = r.generation ∧ r.expiresAt = row.expiresAt ∧ RecordValid env.sha256 r := by
  rw [rowToRecord] at h
  simp only [bind_eq_ok, rejectIf_eq_ok, Except.ok.injEq, not_not, integer_eq_ok] at h
  obtain ⟨json, -, value, hvalue, ns, hns, key, hkey, generation, hgen, vd, -, -, hdigest, rfl⟩ := h
  refine ⟨id_eq_ok hns, id_eq_ok hkey, hgen.1, rfl, ?_, hgen.2, hdigest⟩
  cases json with
  | obj fields =>
    obtain ⟨rfl, hsize⟩ := objectValue_obj.1 hvalue
    exact hsize
  | null => cases hvalue
  | bool b => cases hvalue
  | num t => cases hvalue
  | str t => cases hvalue
  | arr items => cases hvalue

-- ===== upsert

theorem find?_upsertRow {rows : List Row} {rk : String} (hnd : (rows.map (·.rk)).Nodup)
    (hrk : ∀ r ∈ rows, (r.pk == row.pk) = (r.rk == row.rk)) :
    (upsertRow row rows).find? (fun r => r.rk == rk)
    = if rk = row.rk then some row else rows.find? fun r => r.rk == rk := by
  rw [upsertRow]
  split
  · next hany =>
    obtain ⟨old, hold, hpk⟩ := List.any_eq_true.1 hany
    have hkey : old.rk = row.rk := by
      rw [hrk old hold] at hpk
      exact beq_iff_eq.1 hpk
    have hcongr : updateFirst (fun r => r.pk == row.pk) (fun _ => row) rows
        = updateFirst (fun r => r.rk == row.rk) (fun _ => row) rows := by
      clear hany hold hnd
      induction rows with
      | nil => rfl
      | cons r rows ih =>
        rw [updateFirst, updateFirst, hrk r (List.mem_cons_self ..),
          ih fun x hx => hrk x (List.mem_cons_of_mem _ hx)]
    rw [hcongr]
    exact find?_updateFirst_key ((find?_key_eq_some hnd).2 ⟨hold, hkey⟩) rfl
  · next hnone =>
    refine find?_key_append ?_
    intro r hr hkey
    refine hnone (List.any_eq_true.2 ⟨r, hr, ?_⟩)
    rw [hrk r hr]
    exact beq_iff_eq.2 hkey

theorem mem_upsertRow {rows : List Row} {r : Row} (h : r ∈ upsertRow row rows) :
    r = row ∨ r ∈ rows := by
  rw [upsertRow] at h
  split at h
  · rcases mem_updateFirst h with hold | ⟨_, -, -, rfl⟩
    · exact .inr hold
    · exact .inl rfl
  · rcases List.mem_append.1 h with hold | hnew
    · exact .inr hold
    · exact .inl (List.mem_singleton.1 hnew)

theorem TableValid.upsert (h : TableValid env t) (hrow : RowValid env row) :
    TableValid env (t.upsert row) := by
  intro r hr
  rcases mem_upsertRow hr with rfl | hold
  · exact hrow
  · exact h r hold

theorem TableValid.cells_upsert (h : TableValid env t) (hrow : RowValid env row) :
    (t.upsert row).cells env = Function.update (t.cells env) row.rk (rowCell env row) := by
  have hrk : ∀ r ∈ t.rows, (r.pk == row.pk) = (r.rk == row.rk) := by
    intro r hr
    obtain ⟨ns, key, hns, hkey⟩ := hrow.ids
    have hrowk : row.rk = recordKey ns key := by rw [Row.rk, hns, hkey]; rfl
    have hpk : row.pk = ⟨ns.val, key.val⟩ := by rw [Row.pk, hns, hkey]
    rw [hrowk, hpk, Bool.eq_iff_iff, beq_iff_eq, beq_iff_eq]
    exact (h r hr).rk_eq.symm
  funext rk
  rw [Table.cells, Table.upsert, find?_upsertRow h.nodup hrk]
  by_cases heq : rk = row.rk
  · subst heq
    rw [if_pos rfl, Function.update_self]
  · rw [if_neg heq, Function.update_of_ne heq]
    rfl

-- ===== the loop

/-- Expired at an instant, as this store decides it. -/
def Content.goneBySecond (now : Instant) (c : Content) : Bool :=
  c.expiresAt.any fun at' => parseDateString at' ≤ now.val

/-- The compare and the write of one cell. -/
def pgCell (sha256 : Hash) (now : Instant)
    (acc : Cells × List ControlPlaneRecord) (m : NormalizedMutation) :
    Result (Cells × List ControlPlaneRecord) :=
  if m.admits ((acc.1 m.rk).shows (Content.goneBySecond now)) then
    writeCell sha256 now acc m
  else failRetryable .controlPlaneCasMismatch "Record generation changed."

theorem TableValid.cells_eq (h : TableValid env t) (ns key : Id) :
    t.cells env (recordKey ns key) = match t.select ns.val key.val with
      | some row => rowCell env row
      | none => .free := by
  rw [Table.cells, h.select_eq]

theorem rowCell_deleted (h : row.isDeleted = true) :
    rowCell env row = .fence row.generation.toNat := by
  rw [rowCell, if_pos h]

theorem rowCell_live (h : row.isDeleted = false) (hr : rowToRecord env row = .ok r) :
    rowCell env row = .live r.generation r.content := by
  rw [rowCell, if_neg (by rw [h]; exact Bool.false_ne_true), hr]

theorem RowValid.reads (h : RowValid env row) :
    storedGeneration row.generation = .ok (rowCell env row).generation ∧ rowLive now (some row)
        = ((rowCell env row).shows (Content.goneBySecond now)).isSome := by
  have hrange := h.generation
  have hstored : storedGeneration row.generation = .ok row.generation.toNat := by
    rw [storedGeneration_eq_ok]
    omega
  rw [hstored, rowLive, Option.any_some]
  cases hdel : row.isDeleted with
  | true =>
    rw [rowCell_deleted hdel]
    exact ⟨rfl, rfl⟩
  | false =>
    obtain ⟨r, hr⟩ := h.record hdel
    obtain ⟨-, -, hgen, hexp, -⟩ := rowToRecord_eq_ok hr
    rw [rowCell_live hdel hr, hgen, Cell.generation, Int.toNat_natCast, Cell.shows]
    refine ⟨rfl, ?_⟩
    have hcontent : Content.goneBySecond now r.content
        = row.expiresAt.any fun at' => parseDateString at' ≤ now.val := by
      rw [Content.goneBySecond, ControlPlaneRecord.content, hexp]
    rw [hcontent]
    cases row.expiresAt with
    | none => rfl
    | some at' =>
      by_cases hle : parseDateString at' ≤ now.val
      · simp [hle]
      · simp [hle, not_le.1 hle]

theorem shows_cases (gone : Content → Bool) (c : Cell Content) :
    c.shows gone = none ∨ c.shows gone = some c.generation := by
  cases c with
  | free => exact .inl rfl
  | fence g => exact .inl rfl
  | live g b =>
    rw [Cell.shows]
    split
    · exact .inl rfl
    · exact .inr rfl

theorem pgWrite_cells {out : List ControlPlaneRecord} (h : TableValid env t)
    {m : NormalizedMutation} (hm : MutationValid m) :
    (pgWrite env.sha256 now m (t.select m.namespace.val m.key.val)
          (t.cells env m.rk).generation (out, t)).map (fun acc => (acc.2.cells env, acc.1))
        = writeCell env.sha256 now (t.cells env, out) m
      ∧ ∀ {acc}, pgWrite env.sha256 now m (t.select m.namespace.val m.key.val)
          (t.cells env m.rk).generation (out, t) = .ok acc → TableValid env acc.2 := by
  have hcell := h.cells_eq m.namespace m.key
  rw [pgWrite.eq_def, writeCell]
  cases hvalue : m.value with
  | none =>
    have hcontent : m.content env.sha256 now = none := by
      rw [NormalizedMutation.content, hvalue]
      rfl
    simp only [hcontent]
    cases hrow : t.select m.namespace.val m.key.val with
    | none =>
      rw [hrow] at hcell
      have hsame : Function.update (t.cells env) m.rk
          ((t.cells env m.rk).put none) = t.cells env := by
        rw [Function.update_eq_self_iff, NormalizedMutation.rk, hcell]
        rfl
      refine ⟨by rw [hsame]; rfl, ?_⟩
      intro acc hok
      rw [← Except.ok.inj hok]
      exact h
    | some row =>
      rw [hrow] at hcell
      have hrowv := h row (List.mem_of_find?_eq_some hrow)
      have hpk : row.pk = ⟨m.namespace.val, m.key.val⟩ := by
        simpa using List.find?_some hrow
      dsimp only
      cases hdel : row.isDeleted with
      | true =>
        have hsame : Function.update (t.cells env) m.rk
            ((t.cells env m.rk).put none) = t.cells env := by
          rw [Function.update_eq_self_iff, NormalizedMutation.rk, hcell]
          dsimp only
          rw [rowCell_deleted hdel]
          rfl
        refine ⟨by rw [hsame]; rfl, ?_⟩
        intro acc hok
        rw [← Except.ok.inj hok]
        exact h
      | false =>
        have hdeleted : RowValid env (deletedRow env.sha256
            m.namespace.val m.key.val row.generation now) :=
          ⟨⟨m.namespace, m.key, rfl, rfl⟩, hrowv.generation, fun hd => by cases hd⟩
        obtain ⟨r, hr⟩ := hrowv.record hdel
        obtain ⟨-, -, hgen, -, -⟩ := rowToRecord_eq_ok hr
        refine ⟨?_, ?_⟩
        · simp only [Bool.false_eq_true, if_false, Except.map, h.cells_upsert hdeleted]
          refine congrArg Except.ok (Prod.ext ?_ rfl)
          change Function.update (t.cells env) m.rk _ = _
          rw [NormalizedMutation.rk, hcell]
          dsimp only
          rw [rowCell_live hdel hr, rowCell_deleted rfl]
          refine congrArg (Function.update _ _) ?_
          change Cell.fence row.generation.toNat = Cell.fence r.generation
          rw [hgen, Int.toNat_natCast]
        · intro acc hok
          rw [← Except.ok.inj hok]
          exact h.upsert hdeleted
  | some value =>
    have hcontent : m.content env.sha256 now = some
        { valueDigest := digest env.sha256 (.obj value), value,
          updatedAt := now, expiresAt := m.expiresAt } := by
      rw [NormalizedMutation.content, hvalue]
      rfl
    simp only [hcontent]
    by_cases hmax : maxSafeInteger ≤ (t.cells env m.rk).generation
    · rw [rejectIf, if_pos hmax]
      exact ⟨rfl, fun hok => by cases hok⟩
    · rw [rejectIf_of_not hmax]
      have hrecord : RecordValid env.sha256 (makeRecord env.sha256
          m.namespace m.key ((t.cells env m.rk).generation + 1) value now
          m.expiresAt) :=
        ⟨hm value hvalue, ⟨Nat.le_add_left .., by
          change (t.cells env m.rk).generation + 1 ≤ _
          omega⟩, rfl⟩
      refine ⟨?_, ?_⟩
      · simp only [ok_bind, Except.map, h.cells_upsert hrecord.rowValid]
        refine congrArg Except.ok (Prod.ext ?_ rfl)
        rw [rowCell_live rfl hrecord.rowToRecord_toRow]
        rfl
      · intro acc hok
        rw [← Except.ok.inj hok]
        exact h.upsert hrecord.rowValid

theorem pgMutation_cells {out : List ControlPlaneRecord} (h : TableValid env t)
    {m : NormalizedMutation} (hm : MutationValid m) :
    (pgMutation env now (out, t) m).map (fun acc => (acc.2.cells env, acc.1))
      = pgCell env.sha256 now (t.cells env, out) m
    ∧ ∀ {acc}, pgMutation env now (out, t) m = .ok acc → TableValid env acc.2 := by
  have hcell := h.cells_eq m.namespace m.key
  have hreads : rowGeneration (t.select m.namespace.val m.key.val)
        = .ok (t.cells env m.rk).generation
      ∧ rowLive now (t.select m.namespace.val m.key.val)
        = ((t.cells env m.rk).shows (Content.goneBySecond now)).isSome := by
    rw [NormalizedMutation.rk, hcell]
    cases hrow : t.select m.namespace.val m.key.val with
    | none => exact ⟨rfl, rfl⟩
    | some row => exact (h row (List.mem_of_find?_eq_some hrow)).reads
  have hmismatch : mismatches m.expectedGeneration
        (rowLive now (t.select m.namespace.val m.key.val))
        (t.cells env m.rk).generation
      = !m.admits ((t.cells env m.rk).shows (Content.goneBySecond now)) := by
    rw [hreads.2, NormalizedMutation.admits]
    rcases shows_cases (Content.goneBySecond now) (t.cells env m.rk) with
      hshow | hshow
    · rw [hshow]
      cases m.expectedGeneration with
      | none => rfl
      | some g => rfl
    · rw [hshow]
      cases m.expectedGeneration with
      | none => rfl
      | some g => simp [mismatches, bne]
  rw [pgMutation, pgCell]
  simp only [hreads.1, ok_bind, hmismatch]
  cases m.admits ((t.cells env m.rk).shows (Content.goneBySecond now)) with
  | true => exact pgWrite_cells h hm
  | false =>
    refine ⟨rfl, ?_⟩
    intro acc hok
    exact absurd hok failRetryable_ne_ok

end OperatorRuntime.ControlPlane
