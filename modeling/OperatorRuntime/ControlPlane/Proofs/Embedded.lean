/-
The embedded store refines the cells of `Cells.lean`. The second loop of
`transact` works on an array with an index of positions that is rebuilt
after every splice and on a map of fences; `PassInv` says that the index
is the one of the array and that no key is in both, and under it a round
of the loop is the write of one cell (`applyMutation_spec`).
-/
import OperatorRuntime.ControlPlane.Record
import OperatorRuntime.ControlPlane.Embedded
import OperatorRuntime.Lib.Lookup

namespace OperatorRuntime.ControlPlane

open Lib

variable {env : StoreEnv} {now : Instant}

-- ===== the index

/-- An index of positions agrees with the array. -/
def Indexes (index : String → Option Nat) (records : List ControlPlaneRecord) : Prop :=
  ∀ rk i, index rk = some i ↔ ∃ r, records[i]? = some r ∧ r.rk = rk

private theorem foldl_zipIdx (records : List ControlPlaneRecord)
    (index : String → Option Nat) (n : Nat) (rk : String) (i : Nat)
    (hnd : (records.map (·.rk)).Nodup) :
    ((records.zipIdx n).foldl (fun (index : String → Option Nat) item =>
          Function.update index item.1.rk (some item.2)) index) rk = some i
      ↔ (∃ r, n ≤ i ∧ records[i - n]? = some r ∧ r.rk = rk)
        ∨ ((∀ r ∈ records, r.rk ≠ rk) ∧ index rk = some i) := by
  induction records generalizing index n with
  | nil => simp
  | cons r records ih =>
    rw [List.map_cons, List.nodup_cons] at hnd
    rw [List.zipIdx_cons, List.foldl_cons, ih _ _ hnd.2]
    constructor
    · rintro (⟨x, hn, hx, hrk⟩ | ⟨hnone, hidx⟩)
      · refine .inl ⟨x, by omega, ?_, hrk⟩
        obtain ⟨m, rfl⟩ := Nat.exists_eq_add_of_le hn
        rw [show n + 1 + m - n = m + 1 by omega, List.getElem?_cons_succ]
        simpa using hx
      · by_cases hr : r.rk = rk
        · subst hr
          rw [Function.update_self, Option.some.injEq] at hidx
          subst hidx
          exact .inl ⟨r, le_refl _, by simp, rfl⟩
        · rw [Function.update_of_ne fun h => hr h.symm] at hidx
          refine .inr ⟨?_, hidx⟩
          intro x hx
          rcases List.mem_cons.1 hx with rfl | hx
          · exact hr
          · exact hnone x hx
    · rintro (⟨x, hn, hx, hrk⟩ | ⟨hnone, hidx⟩)
      · rcases Nat.eq_or_lt_of_le hn with rfl | hlt
        · rw [Nat.sub_self, List.getElem?_cons_zero, Option.some.injEq] at hx
          subst hx
          refine .inr ⟨?_, ?_⟩
          · intro y hy heq
            apply hnd.1
            rw [hrk, ← heq]
            exact List.mem_map_of_mem hy
          · rw [← hrk, Function.update_self]
        · refine .inl ⟨x, hlt, ?_, hrk⟩
          obtain ⟨m, rfl⟩ := Nat.exists_eq_add_of_le (Nat.succ_le_of_lt hlt)
          rw [show n.succ + m - n = m + 1 by omega,
            List.getElem?_cons_succ] at hx
          rwa [show n.succ + m - (n + 1) = m by omega]
      · refine .inr ⟨fun x hx => hnone x (List.mem_cons_of_mem _ hx), ?_⟩
        rw [Function.update_of_ne, hidx]
        exact fun h => hnone r (List.mem_cons_self ..) h.symm

theorem indexes_indexOf {records : List ControlPlaneRecord}
    (hnd : (records.map (·.rk)).Nodup) : Indexes (indexOf records) records := by
  intro rk i
  rw [indexOf, foldl_zipIdx records _ 0 rk i hnd]
  simp

variable {index : String → Option Nat}

theorem Indexes.current_eq {records : List ControlPlaneRecord} (h : Indexes index records)
    (hnd : (records.map (·.rk)).Nodup) (rk : String) :
    ((index rk).bind fun position => records[position]?) = records.find? fun r => r.rk == rk := by
  cases hidx : index rk with
  | none =>
    symm
    rw [Option.bind_none, find?_key_eq_none]
    intro r hr hrk
    obtain ⟨i, hi⟩ := List.mem_iff_getElem?.1 hr
    rw [(h rk i).2 ⟨r, hi, hrk⟩] at hidx
    cases hidx
  | some i =>
    obtain ⟨r, hr, hrk⟩ := (h rk i).1 hidx
    rw [Option.bind_some, hr, ← hrk]
    exact (find?_key_of_getElem? hnd hr).symm

/-- A record at the end takes the next position. -/
theorem Indexes.push {records : List ControlPlaneRecord} (h : Indexes index records)
    {record : ControlPlaneRecord} (habsent : ∀ r ∈ records, r.rk ≠ record.rk) :
    Indexes (Function.update index record.rk (some records.length)) (records ++ [record]) := by
  intro rk i
  by_cases hrk : rk = record.rk
  · subst hrk
    rw [Function.update_self, Option.some.injEq]
    constructor
    · rintro rfl
      exact ⟨record, by simp, rfl⟩
    · rintro ⟨r, hr, hkey⟩
      rw [List.getElem?_append] at hr
      split at hr
      · exact absurd hkey (habsent r (List.mem_of_getElem? hr))
      · have hlt : i - records.length < [record].length := by
          by_contra hge
          rw [List.getElem?_eq_none (by omega)] at hr
          cases hr
        rw [List.length_singleton] at hlt
        omega
  · rw [Function.update_of_ne hrk, h rk i]
    constructor
    · rintro ⟨r, hr, hkey⟩
      refine ⟨r, ?_, hkey⟩
      rw [List.getElem?_append_left, hr]
      by_contra hge
      rw [List.getElem?_eq_none (by omega)] at hr
      cases hr
    · rintro ⟨r, hr, hkey⟩
      rw [List.getElem?_append] at hr
      split at hr
      · exact ⟨r, hr, hkey⟩
      · have hmem := List.mem_of_getElem? hr
        rw [List.mem_singleton] at hmem
        subst hmem
        exact absurd hkey.symm hrk

theorem Indexes.replace {records : List ControlPlaneRecord} (h : Indexes index records)
    {i : Nat} {r record : ControlPlaneRecord} (hr : records[i]? = some r)
    (hkey : record.rk = r.rk) : Indexes index (records.set i record) := by
  intro rk j
  have hmap := congrArg (fun l : List String => l[j]?) (map_key_set hr hkey)
  simp only [List.getElem?_map] at hmap
  rw [h rk j]
  constructor
  · rintro ⟨x, hx, hxk⟩
    rw [hx, Option.map_some] at hmap
    obtain ⟨y, hy, hyk⟩ := Option.map_eq_some_iff.1 hmap
    exact ⟨y, hy, hyk.trans hxk⟩
  · rintro ⟨x, hx, hxk⟩
    rw [hx, Option.map_some] at hmap
    obtain ⟨y, hy, hyk⟩ := Option.map_eq_some_iff.1 hmap.symm
    exact ⟨y, hy, hyk.trans hxk⟩

theorem Indexes.checkMutation_eq {records : List ControlPlaneRecord} (h : Indexes index records)
    (hnd : (records.map (·.rk)).Nodup) (fences : List ControlPlaneGenerationFence)
    (seen : List String) (m : NormalizedMutation) : checkMutation records index now seen m
    = checkCell (Content.gone now) (cellAt records fences) seen m := by
  have hshows : ((records.find? fun r => r.rk == m.rk).filter
        fun r => !expired r now).map (·.generation)
      = (cellAt records fences m.rk).shows (Content.gone now) := by
    rw [cellAt]
    cases records.find? fun r => r.rk == m.rk with
    | none =>
      cases fences.find? fun f => f.rk == m.rk with
      | none => rfl
      | some f => rfl
    | some r =>
      cases hgone : expired r now with
      | true =>
        have hcontent : Content.gone now r.content = true := hgone
        simp [Cell.shows, hgone, hcontent, Option.filter]
      | false =>
        have hcontent : Content.gone now r.content = false := hgone
        simp [Cell.shows, hgone, hcontent, Option.filter]
  rw [checkMutation, checkCell, h.current_eq hnd, ← hshows]
  congr 1
  funext _
  dsimp only
  cases (records.find? fun r => r.rk == m.rk).filter
      fun r => !expired r now with
  | none =>
    cases hexp : m.expectedGeneration with
    | none => simp [NormalizedMutation.admits, hexp]
    | some g => simp [NormalizedMutation.admits, hexp]
  | some r =>
    cases hexp : m.expectedGeneration with
    | none => simp [NormalizedMutation.admits, hexp, rejectIf, fail]
    | some g => simp [NormalizedMutation.admits, hexp]

-- ===== the cells

/-- No key has two records, two fences, or a record and a fence. -/
def Disjoint (records : List ControlPlaneRecord)
    (fences : List ControlPlaneGenerationFence) : Prop :=
  (records.map (·.rk) ++ fences.map (·.rk)).Nodup

namespace Disjoint

variable {records : List ControlPlaneRecord} {fences : List ControlPlaneGenerationFence}

theorem records_nodup (h : Disjoint records fences) : (records.map (·.rk)).Nodup :=
  (List.nodup_append.1 h).1

theorem fences_nodup (h : Disjoint records fences) : (fences.map (·.rk)).Nodup :=
  (List.nodup_append.1 h).2.1

theorem ne (h : Disjoint records fences) {r : ControlPlaneRecord}
    {f : ControlPlaneGenerationFence} (hr : r ∈ records) (hf : f ∈ fences) : r.rk ≠ f.rk :=
  (List.nodup_append.1 h).2.2 _ (List.mem_map_of_mem hr) _
    (List.mem_map_of_mem hf)

theorem mk (hr : (records.map (·.rk)).Nodup) (hf : (fences.map (·.rk)).Nodup)
    (hne : ∀ r ∈ records, ∀ f ∈ fences, r.rk ≠ f.rk) :
    Disjoint records fences := by
  refine List.nodup_append.2 ⟨hr, hf, ?_⟩
  intro x hx y hy
  obtain ⟨r, hrin, rfl⟩ := List.mem_map.1 hx
  obtain ⟨f, hfin, rfl⟩ := List.mem_map.1 hy
  exact hne r hrin f hfin

theorem cellAt_record (h : Disjoint records fences) {r : ControlPlaneRecord} (hr : r ∈ records) :
    cellAt records fences r.rk = .live r.generation r.content := by
  rw [cellAt, (find?_key_eq_some h.records_nodup).2 ⟨hr, rfl⟩]

theorem cellAt_fence (h : Disjoint records fences)
    {f : ControlPlaneGenerationFence} (hf : f ∈ fences) :
    cellAt records fences f.rk = .fence f.generation := by
  have hnone : records.find? (fun r => r.rk == f.rk) = none :=
    find?_key_eq_none.2 fun r hr => h.ne hr hf
  rw [cellAt, hnone, (find?_key_eq_some h.fences_nodup).2 ⟨hf, rfl⟩]

theorem cellAt_perm (h : Disjoint records fences) {records' : List ControlPlaneRecord}
    {fences' : List ControlPlaneGenerationFence}
    (hr : records'.Perm records) (hf : fences'.Perm fences) :
    cellAt records' fences' = cellAt records fences := by
  funext rk
  rw [cellAt, cellAt, find?_key_perm h.records_nodup hr, find?_key_perm h.fences_nodup hf]

theorem perm (h : Disjoint records fences) {records' : List ControlPlaneRecord}
    {fences' : List ControlPlaneGenerationFence}
    (hr : records'.Perm records) (hf : fences'.Perm fences) :
    Disjoint records' fences' :=
  ((hr.map _).append (hf.map _)).nodup_iff.2 h

end Disjoint

-- ===== the second loop

@[simp] theorem ControlPlaneRecord.fence_rk (r : ControlPlaneRecord) : r.fence.rk = r.rk := rfl

/-- The array, its index and the fences fit together. -/
structure PassInv (p : Pass) : Prop where
  disjoint : Disjoint p.records p.tombstones
  index : Indexes p.index p.records

def Pass.cells (p : Pass) : Cells × List ControlPlaneRecord :=
  (cellAt p.records p.tombstones, p.results)

namespace PassInv

variable {p : Pass}

theorem priorGeneration_eq (h : PassInv p) (rk : String) :
    priorGeneration rk p = (p.cells.1 rk).generation := by
  rw [priorGeneration, h.index.current_eq h.disjoint.records_nodup]
  change _ = (cellAt p.records p.tombstones rk).generation
  cases hr : p.records.find? fun r => r.rk == rk with
  | none =>
    rw [cellAt, hr]
    cases p.tombstones.find? fun f => f.rk == rk with
    | none => rfl
    | some f => simp [Cell.generation]
  | some r =>
    have hrin := (find?_key_eq_some h.disjoint.records_nodup).1 hr
    have hnone : p.tombstones.find? (fun f => f.rk == rk) = none := by
      rw [find?_key_eq_none]
      intro f hf hfr
      exact h.disjoint.ne hrin.1 hf (hrin.2.trans hfr.symm)
    rw [cellAt, hr, hnone]
    simp [Cell.generation]

/-- Deleting a key without a record changes no cell. -/
private theorem put_none_of_absent {rk : String} (h : ∀ r ∈ p.records, r.rk ≠ rk) :
    Function.update p.cells.1 rk ((p.cells.1 rk).put none) = p.cells.1 := by
  rw [Function.update_eq_self_iff]
  change (cellAt p.records p.tombstones rk).put none = cellAt p.records p.tombstones rk
  rw [cellAt, find?_key_eq_none.2 h]
  cases p.tombstones.find? fun f => f.rk == rk with
  | none => rfl
  | some f => rfl

theorem setFence_eq (h : PassInv p) {r : ControlPlaneRecord} (hr : r ∈ p.records) :
    setFence r.fence p.tombstones = p.tombstones ++ [r.fence] := by
  rw [setFence, if_neg]
  rw [List.any_eq_true]
  rintro ⟨f, hf, hrk⟩
  exact h.disjoint.ne hr hf (beq_iff_eq.1 hrk).symm

/-- Deleting one, seen in the cells. -/
theorem deleteRecord_spec (h : PassInv p) (rk : String) :
    PassInv (deleteRecord rk p) ∧ (deleteRecord rk p).cells
    = (Function.update p.cells.1 rk ((p.cells.1 rk).put none), p.results) := by
  have hnd := h.disjoint.records_nodup
  rw [deleteRecord]
  cases hidx : p.index rk with
  | none =>
    have habsent : ∀ r ∈ p.records, r.rk ≠ rk := by
      rw [← find?_key_eq_none, ← h.index.current_eq hnd, hidx, Option.bind_none]
    rw [put_none_of_absent habsent]
    exact ⟨h, rfl⟩
  | some i =>
    obtain ⟨r, hr, rfl⟩ := (h.index rk i).1 hidx
    have hrin : r ∈ p.records := List.mem_of_getElem? hr
    simp only [Option.bind_some, hr, Option.map_some]
    have hdisj : Disjoint (p.records.eraseIdx i) (p.tombstones ++ [r.fence]) := by
      refine Disjoint.mk (nodup_key_eraseIdx hnd i)
        (nodup_key_append h.disjoint.fences_nodup
          fun f hf heq => h.disjoint.ne hrin hf heq.symm) ?_
      intro x hx f hf
      rcases List.mem_append.1 hf with hf | hf
      · exact h.disjoint.ne (List.mem_of_mem_eraseIdx hx) hf
      · rw [List.mem_singleton] at hf
        subst hf
        intro heq
        obtain ⟨j, hj, hxj⟩ := List.mem_eraseIdx_iff_getElem?.1 hx
        exact hj (getElem?_key_inj hnd hxj hr heq)
    refine ⟨⟨?_, indexes_indexOf (nodup_key_eraseIdx hnd i)⟩, ?_⟩
    · rw [h.setFence_eq hrin]
      exact hdisj
    · rw [Pass.cells, h.setFence_eq hrin]
      refine Prod.ext ?_ rfl
      funext k
      change cellAt (p.records.eraseIdx i) (p.tombstones ++ [r.fence]) k
        = Function.update p.cells.1 r.rk ((p.cells.1 r.rk).put none) k
      by_cases hk : k = r.rk
      · subst hk
        rw [Function.update_self]
        change _ = (cellAt p.records p.tombstones r.rk).put none
        rw [h.disjoint.cellAt_record hrin]
        exact hdisj.cellAt_fence (f := r.fence)
          (List.mem_append_right _ (List.mem_singleton_self _))
      · rw [Function.update_of_ne hk]
        change _ = cellAt p.records p.tombstones k
        rw [cellAt, cellAt, find?_key_erase hnd hr, if_neg hk,
          find?_key_append fun f hf heq => h.disjoint.ne hrin hf heq.symm,
          ControlPlaneRecord.fence_rk, if_neg hk]

/-- Putting a record, seen in the cells. -/
theorem putRecord_spec (h : PassInv p) (record : ControlPlaneRecord) :
    PassInv (putRecord record p) ∧ (putRecord record p).cells = (Function.update p.cells.1 record.rk
          (.live record.generation record.content), p.results ++ [record]) := by
  have hnd := h.disjoint.records_nodup
  have hfences : ((p.tombstones.filter fun f => f.rk != record.rk).map (·.rk)).Nodup :=
    h.disjoint.fences_nodup.sublist (List.filter_sublist.map _)
  have hcells : ∀ records' : List ControlPlaneRecord, (∀ k, records'.find? (fun r => r.rk == k)
        = if k = record.rk then some record
          else p.records.find? fun r => r.rk == k) →
      cellAt records' (p.tombstones.filter fun f => f.rk != record.rk)
        = Function.update p.cells.1 record.rk
          (.live record.generation record.content) := by
    intro records' hfind
    funext k
    rw [cellAt, hfind]
    by_cases hk : k = record.rk
    · subst hk
      rw [if_pos rfl, Function.update_self]
    · rw [if_neg hk, Function.update_of_ne hk, find?_key_filter_ne, if_neg hk]
      rfl
  rw [putRecord]
  cases hidx : p.index record.rk with
  | none =>
    have habsent : ∀ r ∈ p.records, r.rk ≠ record.rk := by
      rw [← find?_key_eq_none, ← h.index.current_eq hnd, hidx, Option.bind_none]
    refine ⟨⟨?_, ?_⟩, Prod.ext (hcells _ fun k => find?_key_append habsent) rfl⟩
    · refine Disjoint.mk (nodup_key_append hnd habsent) hfences ?_
      intro r hr f hf
      rw [List.mem_filter] at hf
      rcases List.mem_append.1 hr with hr | hr
      · exact h.disjoint.ne hr hf.1
      · rw [List.mem_singleton] at hr
        subst hr
        exact fun heq => by simp [heq] at hf
    · exact h.index.push habsent
  | some i =>
    obtain ⟨r, hr, hkey⟩ := (h.index record.rk i).1 hidx
    refine ⟨⟨?_, ?_⟩, Prod.ext (hcells _ fun k => find?_key_set hnd hr hkey.symm) rfl⟩
    · refine Disjoint.mk ?_ hfences ?_
      · rwa [map_key_set hr hkey.symm]
      · intro x hx f hf
        rw [List.mem_filter] at hf
        obtain ⟨j, hj⟩ := List.mem_iff_getElem?.1 hx
        rcases getElem?_set_cases hj with ⟨-, rfl⟩ | ⟨-, hold⟩
        · exact fun heq => by simp [heq] at hf
        · exact h.disjoint.ne (List.mem_of_getElem? hold) hf.1
    · exact h.index.replace hr hkey.symm

theorem applyMutation_spec (h : PassInv p) (m : NormalizedMutation) :
    (applyMutation env now p m).map Pass.cells = writeCell env.sha256 now p.cells m
    ∧ ∀ {p'}, applyMutation env now p m = .ok p' → PassInv p' := by
  rw [applyMutation, writeCell]
  cases hvalue : m.value with
  | none =>
    obtain ⟨hinv, hcells⟩ := h.deleteRecord_spec m.rk
    refine ⟨?_, ?_⟩
    · simp only [Except.map, hcells, NormalizedMutation.content, hvalue, Option.map_none]
      rfl
    · intro p' hp'
      rw [← Except.ok.inj hp']
      exact hinv
  | some value =>
    simp only [h.priorGeneration_eq]
    by_cases hmax : maxSafeInteger ≤ (p.cells.1 m.rk).generation
    · simp [rejectIf, hmax, fail, Except.map]
    · obtain ⟨hinv, hcells⟩ := h.putRecord_spec (makeRecord env.sha256
        m.namespace m.key ((p.cells.1 m.rk).generation + 1) value now
        m.expiresAt)
      rw [rejectIf_of_not hmax, ok_bind]
      refine ⟨?_, ?_⟩
      · simp only [Except.map, hcells, NormalizedMutation.content, hvalue, Option.map_some]
        rfl
      · intro p' hp'
        rw [← Except.ok.inj hp']
        exact hinv

end PassInv

end OperatorRuntime.ControlPlane
