/-
The two stores side by side, fed the same transactions. Both refine the
cells of `Cells.lean`; they differ in when a body is gone, in whether
all compares come before all writes, and in the bounds of the embedded
file. Where a transaction meets none of these (`Clear`), the two give
the same answer and stand for the same cells (`stores_agree`).
-/
import OperatorRuntime.ControlPlane.Proofs.Generations
import OperatorRuntime.ControlPlane.Proofs.Postgres

namespace OperatorRuntime.ControlPlane

open Lib

-- === compares and writes

def NormalizedMutation.passes (gone : Content → Bool) (cells : Cells)
    (m : NormalizedMutation) : Prop :=
  m.admits ((cells m.rk).shows gone) = true

theorem checkCells_cases (gone : Content → Bool) (cells : Cells)
    (ms : List NormalizedMutation) (seen : List String) :
    (∃ out, ms.foldlM (checkCell gone cells) seen = .ok out
        ∧ (∀ m ∈ ms, m.passes gone cells) ∧ (ms.map (·.rk)).Nodup ∧ ∀ m ∈ ms, m.rk ∉ seen)
      ∨ (∃ e : OperatorError, ms.foldlM (checkCell gone cells) seen = .error e
        ∧ e.code = .controlPlaneStoreInvalid ∧ ¬ ((ms.map (·.rk)).Nodup ∧ ∀ m ∈ ms, m.rk ∉ seen))
      ∨ ∃ e : OperatorError, ms.foldlM (checkCell gone cells) seen = .error e
        ∧ e.code = .controlPlaneCasMismatch ∧ ∃ pre m post, ms = pre ++ m :: post
          ∧ (∀ x ∈ pre, x.passes gone cells) ∧ ¬ m.passes gone cells
          ∧ ((pre ++ [m]).map (·.rk)).Nodup ∧ ∀ x ∈ pre ++ [m], x.rk ∉ seen := by
  induction ms generalizing seen with
  | nil => exact .inl ⟨seen, rfl, by simp, by simp, by simp⟩
  | cons m ms ih =>
    rw [List.foldlM_cons]
    by_cases hseen : m.rk ∈ seen
    · refine .inr (.inl ⟨_, by rw [checkCell, rejectIf, if_pos hseen]; rfl,
        rfl, ?_⟩)
      rintro ⟨-, hnot⟩
      exact hnot m (List.mem_cons_self ..) hseen
    by_cases hpass : m.passes gone cells
    · have hcheck : checkCell gone cells seen m = .ok (m.rk :: seen) := by
        rw [checkCell, rejectIf_of_not hseen, ok_bind]
        exact if_pos hpass
      rw [hcheck, ok_bind]
      rcases ih (m.rk :: seen) with ⟨out, hok, hall, hnd, hdis⟩
        | ⟨e, herr, hcode, hbad⟩ | ⟨e, herr, hcode, pre, x, post, rfl, hpre, hx, hnd, hdis⟩
      · refine .inl ⟨out, hok, ?_, ?_, ?_⟩
        · exact List.forall_mem_cons.2 ⟨hpass, hall⟩
        · rw [List.map_cons, List.nodup_cons]
          refine ⟨?_, hnd⟩
          intro hin
          obtain ⟨y, hy, hyk⟩ := List.mem_map.1 hin
          exact hdis y hy (hyk ▸ List.mem_cons_self ..)
        · exact List.forall_mem_cons.2 ⟨hseen, fun y hy hin =>
            hdis y hy (List.mem_cons_of_mem _ hin)⟩
      · refine .inr (.inl ⟨e, herr, hcode, ?_⟩)
        rintro ⟨hnd, hdis⟩
        rw [List.map_cons, List.nodup_cons] at hnd
        refine hbad ⟨hnd.2, ?_⟩
        intro y hy hin
        rcases List.mem_cons.1 hin with heq | hin
        · exact hnd.1 (heq ▸ List.mem_map_of_mem hy)
        · exact hdis y (List.mem_cons_of_mem _ hy) hin
      · refine .inr (.inr ⟨e, herr, hcode, m :: pre, x, post, rfl,
          List.forall_mem_cons.2 ⟨hpass, hpre⟩, hx, ?_, ?_⟩)
        · rw [List.cons_append, List.map_cons, List.nodup_cons]
          refine ⟨?_, hnd⟩
          intro hin
          obtain ⟨y, hy, hyk⟩ := List.mem_map.1 hin
          exact hdis y hy (hyk ▸ List.mem_cons_self ..)
        · exact List.forall_mem_cons.2 ⟨hseen, fun y hy hin =>
            hdis y hy (List.mem_cons_of_mem _ hin)⟩
    · obtain ⟨e, herr, hcode⟩ : ∃ e : OperatorError, checkCell gone cells seen m = .error e
            ∧ e.code = .controlPlaneCasMismatch := by
        rw [checkCell, rejectIf_of_not hseen, ok_bind]
        refine (if_neg hpass).symm ▸ ?_
        cases m.expectedGeneration with
        | none => exact ⟨_, rfl, rfl⟩
        | some g => exact ⟨_, rfl, rfl⟩
      refine .inr (.inr ⟨e, by rw [herr]; rfl, hcode, [], m, ms, rfl,
        by simp, hpass, by simp, ?_⟩)
      simpa using hseen

variable {acc : Cells × List ControlPlaneRecord}

theorem writeCell_frame {sha256 : Hash} {now : Instant} {acc' : Cells × List ControlPlaneRecord}
    {m : NormalizedMutation} (h : writeCell sha256 now acc m = .ok acc') {rk : String}
    (hne : rk ≠ m.rk) : acc'.1 rk = acc.1 rk := by
  rw [writeCell] at h
  cases hvalue : m.value with
  | none =>
    rw [hvalue] at h
    rw [← Except.ok.inj h]
    exact Function.update_of_ne hne ..
  | some value =>
    rw [hvalue] at h
    simp only [bind_eq_ok, Except.ok.injEq] at h
    obtain ⟨-, -, rfl⟩ := h
    exact Function.update_of_ne hne ..

/-- A batch with room for each of its generations is written. -/
theorem writeCells_spec (sha256 : Hash) (now : Instant) (cells : Cells)
    {ms : List NormalizedMutation} (hnd : (ms.map (·.rk)).Nodup)
    (hroom : ∀ m ∈ ms, m.value.isSome = true → (cells m.rk).generation < maxSafeInteger)
    (hacc : ∀ m ∈ ms, acc.1 m.rk = cells m.rk) :
    ∃ acc', ms.foldlM (writeCell sha256 now) acc = .ok acc'
    ∧ ∀ rk, rk ∉ ms.map (·.rk) → acc'.1 rk = acc.1 rk := by
  induction ms generalizing acc with
  | nil => exact ⟨acc, rfl, fun _ _ => rfl⟩
  | cons m ms ih =>
    rw [List.map_cons, List.nodup_cons] at hnd
    obtain ⟨acc₁, hok⟩ : ∃ acc₁, writeCell sha256 now acc m = .ok acc₁ := by
      rw [writeCell]
      cases hvalue : m.value with
      | none => exact ⟨_, rfl⟩
      | some value =>
        have hlt := hroom m (List.mem_cons_self ..) (by rw [hvalue]; rfl)
        rw [← hacc m (List.mem_cons_self ..)] at hlt
        rw [rejectIf_of_not (by omega)]
        exact ⟨_, rfl⟩
    rw [List.foldlM_cons, hok]
    have hacc₁ : ∀ x ∈ ms, acc₁.1 x.rk = cells x.rk := by
      intro x hx
      rw [writeCell_frame hok, hacc x (List.mem_cons_of_mem _ hx)]
      intro heq
      exact hnd.1 (heq ▸ List.mem_map_of_mem hx)
    obtain ⟨acc', hok', hframe'⟩ := ih hnd.2
      (fun x hx => hroom x (List.mem_cons_of_mem _ hx)) hacc₁
    refine ⟨acc', hok', ?_⟩
    intro rk hrk
    rw [List.map_cons, List.mem_cons, not_or] at hrk
    rw [hframe' rk hrk.2, writeCell_frame hok hrk.1]

theorem pgCells_eq_writeCells (sha256 : Hash) (now : Instant) (cells : Cells)
    {ms : List NormalizedMutation} (hnd : (ms.map (·.rk)).Nodup)
    (hpass : ∀ m ∈ ms, m.passes (Content.goneBySecond now) cells)
    (hacc : ∀ m ∈ ms, acc.1 m.rk = cells m.rk) :
    ms.foldlM (pgCell sha256 now) acc = ms.foldlM (writeCell sha256 now) acc := by
  induction ms generalizing acc with
  | nil => rfl
  | cons m ms ih =>
    rw [List.map_cons, List.nodup_cons] at hnd
    have hfirst : pgCell sha256 now acc m = writeCell sha256 now acc m := by
      rw [pgCell, hacc m (List.mem_cons_self ..)]
      exact if_pos (hpass m (List.mem_cons_self ..))
    rw [List.foldlM_cons, List.foldlM_cons, hfirst]
    cases hw : writeCell sha256 now acc m with
    | error e => rfl
    | ok acc₁ =>
      refine ih hnd.2 (fun x hx => hpass x (List.mem_cons_of_mem _ hx)) ?_
      intro x hx
      have hne : x.rk ≠ m.rk := fun heq =>
        hnd.1 (heq ▸ List.mem_map_of_mem hx)
      rw [writeCell_frame hw hne, hacc x (List.mem_cons_of_mem _ hx)]

-- ===== the two stores

theorem addDistinct_code {code : ErrorCode} {message : String}
    {keys rks : List String} {e : OperatorError}
    (h : addDistinct code message keys rks = .error e) : e.code = code := by
  induction rks generalizing keys with
  | nil => cases h
  | cons rk rks ih =>
    rw [addDistinct] at h
    split at h
    · rw [← Except.error.inj h]
    · exact ih h

/-- The platform of both stores. -/
structure Hosts where
  store : StoreEnv
  pg : PgEnv
  sameHash : pg.sha256 = store.sha256

/-- What a Postgres transaction means on the cells of a table. -/
def pgMeaning (env : PgEnv) (ms : List ControlPlaneMutation) (now : IsoText)
    (cells : Cells) : Result (Cells × List ControlPlaneRecord) :=
  do
    checkBatch ms
    let now ← iso now "now"
    let normalized ← ms.mapM normalizeMutation
    let _ ← addDistinct .controlPlaneStoreInvalid
      "A transaction cannot mutate the same record twice." []
      (normalized.map (·.rk))
    normalized.foldlM (pgCell env.sha256 now) (cells, [])

variable {env : PgEnv} {t : Table}

theorem TableValid.pgTransact_spec (h : TableValid env t) (ms : List ControlPlaneMutation)
    (now : IsoText) :
    (∃ e, pgMeaning env ms now (t.cells env) = .error e ∧ pgTransact env ms now t = (.error e, t))
    ∨ ∃ out t', pgMeaning env ms now (t.cells env) = .ok (t'.cells env, out)
      ∧ pgTransact env ms now t = (.ok out, t') ∧ TableValid env t' := by
  rw [pgTransact, withTransaction, pgMeaning]
  cases checkBatch ms with
  | error e => exact .inl ⟨e, rfl, rfl⟩
  | ok _ =>
    cases now with
    | none => exact .inl ⟨_, rfl, rfl⟩
    | some at' =>
      simp only [iso, ok_bind]
      cases hms : ms.mapM normalizeMutation with
      | error e => exact .inl ⟨e, rfl, rfl⟩
      | ok normalized =>
        simp only [ok_bind]
        cases addDistinct .controlPlaneStoreInvalid
            "A transaction cannot mutate the same record twice." []
            (normalized.map (·.rk)) with
        | error e => exact .inl ⟨e, rfl, rfl⟩
        | ok _ =>
          simp only [ok_bind]
          obtain ⟨hcells, hvalid⟩ := foldlM_simulates
            (f := pgMutation env at') (g := pgCell env.sha256 at')
            (r := fun acc => (acc.2.cells env, acc.1))
            (I := fun acc => TableValid env acc.2) (l := normalized)
            (fun acc m hm hacc => by
              obtain ⟨raw, -, hraw⟩ := exists_of_mapM_eq_ok hms hm
              exact pgMutation_cells hacc (normalizeMutation_valid hraw))
            (a := ([], t)) h
          rw [← hcells]
          cases hfold : normalized.foldlM (pgMutation env at') ([], t) with
          | error e => exact .inl ⟨e, rfl, rfl⟩
          | ok acc =>
            exact .inr ⟨acc.1, acc.2, rfl, rfl, hvalid hfold⟩

/-- Two answers agree: the same records, or errors of one code. -/
def Agree (a b : Result (List ControlPlaneRecord)) : Prop :=
  (∃ out, a = .ok out ∧ b = .ok out)
    ∨ ∃ e e' : OperatorError, a = .error e ∧ b = .error e' ∧ e.code = e'.code

/-- What keeps the two meanings of a transaction together: no instant
lies between an expiry and its second, and a compare that fails is what
stops both. -/
structure SameMeaning (now : Instant) (normalized : List NormalizedMutation)
    (cells : Cells) : Prop where
  instants : ∀ m ∈ normalized, (cells m.rk).shows (Content.gone now)
      = (cells m.rk).shows (Content.goneBySecond now)
  order : ∀ (pre : List NormalizedMutation) m post, normalized = pre ++ m :: post →
    (∀ x ∈ pre, x.passes (Content.gone now) cells) →
    ¬ m.passes (Content.gone now) cells → ((pre ++ [m]).map (·.rk)).Nodup →
    (normalized.map (·.rk)).Nodup ∧ ∀ x ∈ pre, x.value.isSome = true →
      (cells x.rk).generation < maxSafeInteger

variable {h : Hosts}

theorem meanings_agree {ms : List ControlPlaneMutation} {now : IsoText} {cells : Cells}
    (hsame : ∀ at' normalized, now = some at' → ms.mapM normalizeMutation = .ok normalized →
      SameMeaning at' normalized cells) : meaning h.store ms now cells = pgMeaning h.pg ms now cells
      ∨ ∃ e e' : OperatorError, meaning h.store ms now cells = .error e
        ∧ pgMeaning h.pg ms now cells = .error e' ∧ e.code = e'.code := by
  rw [meaning, pgMeaning]
  cases checkBatch ms with
  | error e => exact .inl rfl
  | ok _ =>
    cases now with
    | none => exact .inl rfl
    | some at' =>
      simp only [iso, ok_bind]
      cases hms : ms.mapM normalizeMutation with
      | error e => exact .inl rfl
      | ok normalized =>
        obtain ⟨hinstants, horder⟩ := hsame at' normalized rfl hms
        have hpass : ∀ m ∈ normalized, m.passes (Content.gone at') cells ↔
            m.passes (Content.goneBySecond at') cells := by
          intro m hm
          rw [NormalizedMutation.passes, NormalizedMutation.passes, hinstants m hm]
        have hdistinct : (normalized.map (·.rk)).Nodup → addDistinct .controlPlaneStoreInvalid
              "A transaction cannot mutate the same record twice." []
              (normalized.map (·.rk))
            = .ok (normalized.map (·.rk)).reverse := by
          intro hnd
          rw [addDistinct_eq_ok]
          exact ⟨hnd, by simp, by simp⟩
        simp only [ok_bind, commit, h.sameHash]
        rcases checkCells_cases (Content.gone at') cells normalized [] with
          ⟨seen, hok, hall, hnd, -⟩ | ⟨e, herr, hcode, hrepeat⟩
          | ⟨e, herr, hcode, pre, m, post, hsplit, hpre, hm, hnd, -⟩
        · rw [hok, hdistinct hnd]
          simp only [ok_bind]
          rw [pgCells_eq_writeCells h.store.sha256 at' cells hnd
            (fun m hm => (hpass m hm).1 (hall m hm)) fun _ _ => rfl]
          exact .inl rfl
        · have hnot : ¬ (normalized.map (·.rk)).Nodup := fun hnd =>
            hrepeat ⟨hnd, by simp⟩
          rw [herr]
          cases hadd : addDistinct .controlPlaneStoreInvalid
              "A transaction cannot mutate the same record twice." []
              (normalized.map (·.rk)) with
          | ok out => exact absurd (addDistinct_eq_ok.1 hadd).1 hnot
          | error e' =>
            refine .inr ⟨e, e', rfl, rfl, ?_⟩
            rw [hcode, addDistinct_code hadd]
        · obtain ⟨hall, hroom⟩ := horder pre m post hsplit hpre hm hnd
          rw [herr, hdistinct hall]
          simp only [ok_bind, error_bind]
          rw [hsplit, List.foldlM_append]
          rw [List.map_append, List.nodup_append] at hnd
          have hprepass : ∀ x ∈ pre, x.passes (Content.goneBySecond at') cells := by
            intro x hx
            refine (hpass x ?_).1 (hpre x hx)
            rw [hsplit]
            exact List.mem_append_left _ hx
          have hstart : ∀ x ∈ pre, (cells, ([] : List ControlPlaneRecord)).1
              x.rk = cells x.rk := fun _ _ => rfl
          obtain ⟨acc, hwrites, hframe⟩ := writeCells_spec h.store.sha256
            at' cells hnd.1 hroom hstart
          rw [pgCells_eq_writeCells h.store.sha256 at' cells hnd.1 hprepass
            fun _ _ => rfl, hwrites]
          have hkey : m.rk ∉ pre.map (·.rk) := by
            intro hin
            exact hnd.2.2 _ hin m.rk (by simp) rfl
          have hfail : pgCell h.store.sha256 at' acc m
              = failRetryable .controlPlaneCasMismatch
                "Record generation changed." := by
            rw [pgCell, hframe m.rk hkey]
            refine if_neg fun hp => hm ((hpass m ?_).2 hp)
            rw [hsplit]
            exact List.mem_append_right _ (List.mem_cons_self ..)
          simp only [ok_bind, List.foldlM_cons, hfail]
          exact .inr ⟨e, _, rfl, rfl, hcode⟩

-- ===== queries

def cellRecord (ns key : Id) : Cell Content → Option ControlPlaneRecord
  | .live generation c =>
    some { «namespace» := ns, key, generation, valueDigest := c.valueDigest,
           value := c.value, updatedAt := c.updatedAt,
           expiresAt := c.expiresAt }
  | _ => none

theorem cellRecord_self (r : ControlPlaneRecord) :
    cellRecord r.namespace r.key (.live r.generation r.content) = some r := rfl

theorem findRecord_eq (ns key : Id) (records : List ControlPlaneRecord) :
    findRecord ns.val key.val records = .ok (records.find? fun r => r.rk == recordKey ns key) := by
  induction records with
  | nil => rfl
  | cons r records ih =>
    have hmatch : matchesKey ns.val key.val r = .ok (r.rk == recordKey ns key) := by
      rw [matchesKey, id_val, ok_bind]
      by_cases hkey : r.rk = recordKey ns key
      · obtain ⟨hns, hk⟩ := recordKey_inj hkey
        rw [if_pos hns, id_val]
        simp [Except.map, hk, hkey]
      · rw [beq_false_of_ne hkey]
        split
        · next hns =>
          rw [id_val]
          have hk : ¬ r.key = key := fun hk =>
            hkey (by rw [ControlPlaneRecord.rk, hns, hk])
          simp [Except.map, hk]
        · rfl
    rw [findRecord, hmatch, ok_bind, List.find?_cons]
    cases r.rk == recordKey ns key with
    | true => rfl
    | false => exact ih

variable {s : EmbeddedState}

theorem Sound.get_eq {env : StoreEnv} (h : Sound env s) (ns key : Id) :
    (FileM.on (get env ns.val key.val) s).1
    = .ok (cellRecord ns key (s.cells (recordKey ns key))) := by
  rw [get, h.on_read_bind, on_lift, findRecord_eq, EmbeddedState.cells, cellAt]
  cases hf : s.records.find? fun r => r.rk == recordKey ns key with
  | none =>
    cases s.tombstones.find? fun f => f.rk == recordKey ns key with
    | none => rfl
    | some f => rfl
  | some r =>
    have hrk := (find?_key_eq_some h.valid.disjoint.records_nodup).1 hf
    obtain ⟨rfl, rfl⟩ := recordKey_inj hrk.2
    rfl

theorem TableValid.pgGet_eq (h : TableValid env t) (ns key : Id) : pgGet env ns.val key.val t
    = .ok (cellRecord ns key (t.cells env (recordKey ns key))) := by
  rw [pgGet, id_val, ok_bind, id_val, ok_bind, h.cells_eq]
  cases hsel : t.select ns.val key.val with
  | none => rfl
  | some row =>
    have hrow := h row (List.mem_of_find?_eq_some hsel)
    have hpk : row.pk = ⟨ns.val, key.val⟩ := by
      simpa using List.find?_some hsel
    dsimp only
    cases hdel : row.isDeleted with
    | true =>
      rw [if_pos rfl, rowCell_deleted hdel]
      rfl
    | false =>
      obtain ⟨r, hr⟩ := hrow.record hdel
      obtain ⟨hns, hkey, -⟩ := rowToRecord_eq_ok hr
      rw [Row.pk, PrimaryKey.mk.injEq, hns, hkey] at hpk
      obtain rfl : r.namespace = ns := Subtype.ext hpk.1
      obtain rfl : r.key = key := Subtype.ext hpk.2
      rw [if_neg Bool.false_ne_true, rowCell_live hdel hr, hr, cellRecord_self]
      rfl

theorem Sound.mem_records {env : StoreEnv} (h : Sound env s) (r : ControlPlaneRecord) :
    r ∈ s.records ↔ s.cells r.rk = .live r.generation r.content := by
  constructor
  · exact h.valid.disjoint.cellAt_record
  · intro hcell
    have hget := h.get_eq r.namespace r.key
    change _ = Except.ok (cellRecord _ _ (s.cells r.rk)) at hget
    rw [hcell, cellRecord_self, get, h.on_read_bind, on_lift, findRecord_eq,
      Except.ok.injEq] at hget
    exact List.mem_of_find?_eq_some hget

/-- A row that is not deleted is the live cell of its key. -/
theorem TableValid.mem_rows (h : TableValid env t) (r : ControlPlaneRecord) :
    (∃ row ∈ t.rows, row.isDeleted = false ∧ rowToRecord env row = .ok r)
    ↔ t.cells env r.rk = .live r.generation r.content := by
  constructor
  · rintro ⟨row, hrow, hdel, hr⟩
    obtain ⟨hns, hkey, -⟩ := rowToRecord_eq_ok hr
    have hrk : row.rk = r.rk := by rw [Row.rk, hns, hkey]; rfl
    rw [Table.cells, (find?_key_eq_some h.nodup).2 ⟨hrow, hrk⟩]
    exact rowCell_live hdel hr
  · intro hcell
    have hget := h.pgGet_eq r.namespace r.key
    change _ = Except.ok (cellRecord _ _ (t.cells env r.rk)) at hget
    rw [hcell, cellRecord_self, pgGet, id_val, ok_bind, id_val, ok_bind] at hget
    cases hsel : t.select r.namespace.val r.key.val with
    | none =>
      rw [hsel] at hget
      cases hget
    | some row =>
      rw [hsel] at hget
      dsimp only at hget
      cases hdel : row.isDeleted with
      | true =>
        rw [hdel, if_pos rfl] at hget
        cases hget
      | false =>
        rw [hdel, if_neg Bool.false_ne_true] at hget
        refine ⟨row, List.mem_of_find?_eq_some hsel, hdel, ?_⟩
        cases hr : rowToRecord env row with
        | error e =>
          rw [hr] at hget
          cases hget
        | ok r' =>
          rw [hr] at hget
          obtain rfl : r' = r := by simpa [Except.map] using hget
          rfl

/-- Both stores list the same records, in an order of their own. -/
theorem lists_agree {env : StoreEnv} {pg : PgEnv} (hs : Sound env s) (ht : TableValid pg t)
    (hcells : s.cells = t.cells pg) (ns : Id) : ∃ xs ys, (FileM.on (list env ns.val) s).1 = .ok xs
    ∧ pgList pg ns.val t = .ok ys ∧ xs.Perm ys := by
  have hordered : ((t.ordered pg).filter fun row => row.namespace = ns.val ∧ !row.isDeleted).Perm
      (t.rows.filter fun row => row.namespace = ns.val ∧ !row.isDeleted) :=
    (List.perm_insertionSort _ _).filter _
  obtain ⟨ys, hys⟩ := exists_mapM_eq_ok (f := rowToRecord pg)
    (l := (t.ordered pg).filter fun row => row.namespace = ns.val ∧ !row.isDeleted) (by
      intro row hrow
      have hin := List.mem_filter.1 (hordered.mem_iff.1 hrow)
      exact (ht row hin.1).record (by simpa using (of_decide_eq_true hin.2).2))
  refine ⟨sortByKey env.localeCompare (fun item => item.key.val)
    (s.records.filter fun item => item.namespace = ns), ys, ?_, ?_, ?_⟩
  · rw [list, on_lift_bind, id_val]
    simp only [hs.on_read_bind]
    rfl
  · rw [pgList, id_val, ok_bind]
    exact hys
  · have hnodup : (s.records.filter fun item => item.namespace = ns).Nodup :=
      (hs.valid.disjoint.records_nodup.of_map _).filter _
    have hynodup : ys.Nodup := by
      have hkeys : ys.map (·.rk) = _ := map_eq_of_mapM_eq_ok (k := Row.rk) hys (by
        intro row _ r hr
        obtain ⟨hns, hkey, -⟩ := rowToRecord_eq_ok hr
        rw [Row.rk, hns, hkey]
        rfl)
      refine List.Nodup.of_map (·.rk) ?_
      rw [hkeys]
      exact ((hordered.map _).nodup_iff.2 (ht.nodup.sublist (List.filter_sublist.map _)))
    refine (sortByKey_perm ..).trans
      ((List.perm_ext_iff_of_nodup hnodup hynodup).2 ?_)
    intro r
    rw [List.mem_filter, hs.mem_records, hcells, ← ht.mem_rows]
    constructor
    · rintro ⟨⟨row, hrow, hdel, hr⟩, hns⟩
      refine mem_of_mapM_eq_ok hys (hordered.mem_iff.2 (List.mem_filter.2 ⟨hrow, ?_⟩)) hr
      obtain ⟨hrowns, -⟩ := rowToRecord_eq_ok hr
      rw [hrowns, of_decide_eq_true hns, hdel]
      simp
    · intro hr
      obtain ⟨row, hrow, hok⟩ := exists_of_mapM_eq_ok hys hr
      have hin := List.mem_filter.1 (hordered.mem_iff.1 hrow)
      obtain ⟨hns, hdel⟩ := of_decide_eq_true hin.2
      refine ⟨⟨row, hin.1, by simpa using hdel, hok⟩, ?_⟩
      obtain ⟨hrowns, -⟩ := rowToRecord_eq_ok hok
      exact decide_eq_true (Subtype.ext (hrowns.symm.trans hns))

-- ===== runs

/-- The two stores, and the answers both gave so far, oldest first. -/
structure Pair where
  file : EmbeddedState
  table : Table
  answers : List (Result (List ControlPlaneRecord)
    × Result (List ControlPlaneRecord))

def Pair.start : Pair := { file := .empty, table := .empty, answers := [] }

/-- The mutations and the `now` both stores are given. -/
abbrev PairCall := List ControlPlaneMutation × IsoText

def Pair.step (h : Hosts) (p : Pair) (call : PairCall) : Pair :=
  let embedded := FileM.on (transact h.store call.1 call.2) p.file
  let postgres := pgTransact h.pg call.1 call.2 p.table
  { file := embedded.2
    table := postgres.2
    answers := p.answers ++ [(embedded.1, postgres.1)] }

def pairSteps (h : Hosts) : Pair → PairCall → Pair → Prop :=
  stepsOf fun p call => some (p.step h call)

/-- The transaction's instant is not in the second of a mutated record's
expiry and before the expiry; when a compare fails before any key
repeats, no key repeats after it and no mutation before it stores under
the highest generation; and the embedded file has room for the result. -/
structure Clear (h : Hosts) (p : Pair) (call : PairCall) : Prop where
  instants : ∀ now normalized, call.2 = some now → call.1.mapM normalizeMutation = .ok normalized →
    ∀ r ∈ p.file.records, (∃ m ∈ normalized, m.rk = r.rk) → ∀ at' ∈ r.expiresAt,
        ¬ (parseDateString at' ≤ now.val ∧ now.val < at'.val)
  order : ∀ now normalized, call.2 = some now → call.1.mapM normalizeMutation = .ok normalized →
    ∀ (pre : List NormalizedMutation) m post, normalized = pre ++ m :: post →
      (∀ x ∈ pre, x.passes (Content.gone now) p.file.cells) →
      ¬ m.passes (Content.gone now) p.file.cells →
      ((pre ++ [m]).map (·.rk)).Nodup →
      (normalized.map (·.rk)).Nodup ∧ ∀ x ∈ pre, x.value.isSome = true →
        (p.file.cells x.rk).generation < maxSafeInteger
  room : ∀ now pass, call.2 = some now → applyBatch h.store call.1 now p.file = .ok pass →
    Bounded (pass.state h.store) ∧ h.store.fits (pass.state h.store) = true

theorem Clear.sameMeaning {p : Pair} {call : PairCall} (hclear : Clear h p call)
    (hs : Sound h.store p.file) {now : Instant} {normalized : List NormalizedMutation}
    (hnow : call.2 = some now) (hms : call.1.mapM normalizeMutation = .ok normalized) :
    SameMeaning now normalized p.file.cells where
  order := hclear.order now normalized hnow hms
  instants := by
    intro m hm
    rw [EmbeddedState.cells, cellAt]
    cases hf : p.file.records.find? fun r => r.rk == m.rk with
    | none =>
      cases p.file.tombstones.find? fun f => f.rk == m.rk with
      | none => rfl
      | some f => rfl
    | some r =>
      obtain ⟨hr, hrk⟩ :=
        (find?_key_eq_some hs.valid.disjoint.records_nodup).1 hf
      have hsame : Content.gone now r.content = Content.goneBySecond now r.content := by
        have hno := hclear.instants now normalized hnow hms r hr ⟨m, hm, hrk.symm⟩
        rw [Content.gone, Content.goneBySecond]
        change r.expiresAt.any _ = r.expiresAt.any _
        cases hexp : r.expiresAt with
        | none => rfl
        | some at' =>
          have hat := hno at' hexp
          have hfloor : parseDateString at' ≤ at'.val := by
            rw [parseDateString]
            omega
          rw [Option.any_some, Option.any_some]
          by_cases hle : at'.val ≤ now.val
          · simp [hle, hfloor.trans hle]
          · have hnot : ¬ parseDateString at' ≤ now.val := fun hp =>
              hat ⟨hp, not_le.1 hle⟩
            simp [hle, hnot]
      simp only [Cell.shows, hsame]

/-- The invariant of the pair. -/
structure PairInv (h : Hosts) (p : Pair) : Prop where
  file : Sound h.store p.file
  table : TableValid h.pg p.table
  cells : p.file.cells = p.table.cells h.pg
  answers : ∀ a ∈ p.answers, Agree a.1 a.2

/-- One call on both stores. -/
theorem PairInv.step {p : Pair} (hp : PairInv h p) (hc : Collates h.store.localeCompare)
    {call : PairCall} (hclear : Clear h p call) : PairInv h (p.step h call) := by
  obtain ⟨ms, now⟩ := call
  have hlog : ∀ {a b}, Agree a b → ∀ x ∈ p.answers ++ [(a, b)], Agree x.1 x.2 := by
    intro a b hab x hx
    rcases List.mem_append.1 hx with hx | hx
    · exact hp.answers x hx
    · rw [List.mem_singleton.1 hx]
      exact hab
  have hsame : ∀ at' normalized, now = some at' → ms.mapM normalizeMutation = .ok normalized →
      SameMeaning at' normalized p.file.cells :=
    fun at' normalized hnow hms => hclear.sameMeaning hp.file hnow hms
  have hmeanings := meanings_agree (h := h) hsame
  rw [Pair.step]
  rcases hp.table.pgTransact_spec ms now with
    ⟨e', hpg, hpgon⟩ | ⟨out', t', hpg, hpgon, ht'⟩
  · rw [← hp.cells] at hpg
    rcases hp.file.transact_spec hc ms now with
      ⟨e, hmean, hon⟩ | ⟨at', q, -, -, hmean, -, -⟩
    · simp only [hon, hpgon]
      refine ⟨hp.file, hp.table, hp.cells, hlog (.inr ⟨e, e', rfl, rfl, ?_⟩)⟩
      rcases hmeanings with heq | ⟨e₁, e₂, h₁, h₂, hcode⟩
      · rw [Except.error.inj (hmean.symm.trans (heq.trans hpg))]
      · rw [Except.error.inj (hmean.symm.trans h₁), Except.error.inj (hpg.symm.trans h₂), hcode]
    · rcases hmeanings with heq | ⟨e₁, e₂, h₁, -⟩
      · rw [hmean, hpg] at heq
        cases heq
      · rw [hmean] at h₁
        cases h₁
  · rw [← hp.cells] at hpg
    rcases hp.file.transact_spec hc ms now with
      ⟨e, hmean, -⟩ | ⟨at', q, hnow, hq, hmean, hcells, hout⟩
    · rcases hmeanings with heq | ⟨e₁, e₂, -, h₂, -⟩
      · rw [hmean, hpg] at heq
        cases heq
      · rw [hpg] at h₂
        cases h₂
    · rcases hmeanings with heq | ⟨e₁, e₂, h₁, -⟩
      · rw [hmean, hpg, Except.ok.injEq] at heq
        rcases hout with ⟨hsound, -, hon⟩ | ⟨hbound, -⟩
        · simp only [hon, hpgon]
          refine ⟨hsound, ht', ?_, hlog (.inl ⟨q.results, rfl, ?_⟩)⟩
          · rw [hcells, heq]
          · exact congrArg Except.ok (congrArg Prod.snd heq).symm
        · exact absurd (hclear.room at' q hnow hq) hbound
      · rw [hmean] at h₁
        cases h₁

/-- Over every run of clear transactions, both stores accept with the
same records or fail with the same code every time, and in the end `get`
and `list` show the same records. -/
theorem stores_agree {h : Hosts} (hc : Collates h.store.localeCompare)
    {p : Pair} {calls : List PairCall}
    (hrun : Run (Where (pairSteps h) (Clear h)) Pair.start calls p) :
    (∀ a ∈ p.answers, Agree a.1 a.2)
    ∧ (∀ ns key : Id, (FileM.on (get h.store ns.val key.val) p.file).1
      = pgGet h.pg ns.val key.val p.table)
    ∧ ∀ ns : Id, ∃ xs ys, (FileM.on (list h.store ns.val) p.file).1 = .ok xs
      ∧ pgList h.pg ns.val p.table = .ok ys ∧ xs.Perm ys := by
  have hinv : PairInv h p := by
    refine hrun.invariant ⟨sound_empty, ?_, rfl, ?_⟩ ?_
    · intro row hrow
      exact absurd hrow List.not_mem_nil
    · intro a ha
      exact absurd ha List.not_mem_nil
    · intro s t call hs hstep
      obtain ⟨hstep, hclear⟩ := hstep
      rw [pairSteps, stepsOf, Option.some.injEq] at hstep
      rw [← hstep]
      exact hs.step hc hclear
  refine ⟨hinv.answers, ?_, lists_agree hinv.file hinv.table hinv.cells⟩
  intro ns key
  rw [hinv.file.get_eq, hinv.table.pgGet_eq, hinv.cells]

/-- Both stores on the plain platform; text columns in code point order. -/
def plainHosts : Hosts where
  store := plainStore
  pg := { sha256 := sha256Utf8, localeCompare := plainStore.localeCompare,
          columnLe := fun a b => decide (a ≤ b),
          jsonParse := fun text => .ok (.str text) }
  sameHash := rfl

theorem clear_first : Clear plainHosts Pair.start ([fillMutation 0], some epoch) where
  instants := by
    intro now normalized _ _ r hr
    exact absurd hr List.not_mem_nil
  order := by
    intro now normalized _ hms pre m post hsplit _ hfail _
    obtain ⟨n, hn, ns, hns, rfl⟩ := mapM_cons_eq_ok.1 hms
    obtain rfl : [] = ns := Except.ok.inj hns
    obtain ⟨rfl, rfl⟩ : pre = [] ∧ m = n := by
      cases pre with
      | nil => exact ⟨rfl, (List.cons.inj hsplit).1.symm⟩
      | cons x pre =>
        have hnil := (List.cons.inj hsplit).2
        cases pre with
        | nil => cases hnil
        | cons y pre => cases hnil
    obtain rfl := Except.ok.inj ((normalizeMutation_fill 0).symm.trans hn)
    exact absurd rfl hfail
  room := by
    intro now pass hnow hpass
    have hempty : Sound plainStore EmbeddedState.empty := sound_empty
    obtain ⟨q, hq, hrecords, hfences⟩ :=
      hempty.valid.applyBatch_create (normalizeMutation_fill 0) rfl rfl (by simp [EmbeddedState.empty])
        (by simp [EmbeddedState.empty]) now
    obtain rfl := Except.ok.inj (hq.symm.trans hpass)
    refine ⟨⟨?_, ?_⟩, rfl⟩
    · rw [Pass.state, (sortByKey_perm ..).length_eq, hrecords,
        List.length_append, List.length_singleton]
      decide
    · rw [Pass.state, (sortByKey_perm ..).length_eq, hfences]
      decide

/-- A first record in both. -/
theorem stores_agree_first : ∃ p, Run (Where (pairSteps plainHosts) (Clear plainHosts)) Pair.start
        [([fillMutation 0], some epoch)] p
      ∧ p.answers.length = 1 ∧ ∀ a ∈ p.answers, Agree a.1 a.2 := by
  have hrun : Run (Where (pairSteps plainHosts) (Clear plainHosts)) Pair.start
      ([] ++ [([fillMutation 0], some epoch)])
      (Pair.start.step plainHosts ([fillMutation 0], some epoch)) :=
    Run.snoc Run.nil ⟨rfl, clear_first⟩
  exact ⟨_, hrun, rfl, (stores_agree plainStore_collates hrun).1⟩

/-- A record that expires at 1.5 s, updated at 1.2 s. -/
def renewalCalls : List PairCall :=
  [([{ «namespace» := "a", key := "k", expectedGeneration := none,
       value := .obj [], expiresAt := some (some ⟨1500, by omega⟩) }],
     some epoch),
   ([{ «namespace» := "a", key := "k", expectedGeneration := some (.int 1),
       value := .obj [], expiresAt := some (some ⟨3000, by omega⟩) }],
     some ⟨1200, by omega⟩)]

/-- The code of a call that threw. -/
def answerCode : Result (List ControlPlaneRecord) → Option ErrorCode
  | .ok _ => none
  | .error e => some e.code

/-- The embedded store accepts the update; for Postgres the record expired
at 1 s, and the update is a mismatch. -/
theorem stores_disagree_within_second : ∃ p, Run (pairSteps plainHosts) Pair.start renewalCalls p
    ∧ p.answers.map (fun a => (answerCode a.1, answerCode a.2))
      = [(none, none), (none, some .controlPlaneCasMismatch)] :=
  ⟨_, run_of_exec (s := Pair.start) rfl, by decide +kernel⟩

end OperatorRuntime.ControlPlane
