/-
Generations over the life of the embedded store: transactions, purges,
and moves of the whole store through `snapshot` and `restore`. A key's
generation never falls along such a run, and what a transaction stores
is above everything the key had before (`generations_increase`); the
restored store differs from the original only in that expired records
have become fences, which no later transaction can tell
(`answers_eq_of_faded`), unless one of the two stores is at the size
bounds where the other is not.
-/
import Mathlib.Data.String.Basic
import OperatorRuntime.ControlPlane.Proofs.Transact
import OperatorRuntime.Lib.Runs

namespace OperatorRuntime.ControlPlane

open Lib

variable {env : StoreEnv}

-- ===== one transaction

/-- What the writes of a transaction have done to the cells they started
from. -/
structure Advanced (before : Cells)
    (acc : Cells × List ControlPlaneRecord) : Prop where
  le : ∀ rk, (before rk).generation ≤ (acc.1 rk).generation
  stored : ∀ r ∈ acc.2, (before r.rk).generation < r.generation
    ∧ r.generation ≤ (acc.1 r.rk).generation
  increasing : acc.2.Pairwise fun a b => a.rk = b.rk → a.generation < b.generation

variable {now : Instant}

theorem Advanced.writeCell {before : Cells} {sha256 : Hash}
    {acc acc' : Cells × List ControlPlaneRecord} {m : NormalizedMutation}
    (h : Advanced before acc) (hw : writeCell sha256 now acc m = .ok acc') :
    Advanced before acc' := by
  have hle : ∀ rk, (acc.1 rk).generation
      ≤ (Function.update acc.1 m.rk ((acc.1 m.rk).put (m.content sha256 now)) rk).generation := by
    intro rk
    by_cases hrk : rk = m.rk
    · subst hrk
      rw [Function.update_self]
      exact Cell.generation_le_put ..
    · rw [Function.update_of_ne hrk]
  rw [ControlPlane.writeCell] at hw
  cases hvalue : m.value with
  | none =>
    rw [hvalue] at hw
    rw [← Except.ok.inj hw]
    exact ⟨fun rk => (h.le rk).trans (hle rk),
      fun r hr => ⟨(h.stored r hr).1, (h.stored r hr).2.trans (hle r.rk)⟩,
      h.increasing⟩
  | some value =>
    rw [hvalue] at hw
    simp only [bind_eq_ok, rejectIf_eq_ok, Except.ok.injEq, not_le] at hw
    obtain ⟨-, -, rfl⟩ := hw
    refine ⟨fun rk => (h.le rk).trans (hle rk), ?_, ?_⟩
    · intro r hr
      rcases List.mem_append.1 hr with hr | hr
      · exact ⟨(h.stored r hr).1, (h.stored r hr).2.trans (hle r.rk)⟩
      · rw [List.mem_singleton] at hr
        subst hr
        have hold := h.le m.rk
        refine ⟨Nat.lt_succ_of_le hold, ?_⟩
        change _ ≤ (Function.update acc.1 m.rk
          ((acc.1 m.rk).put (m.content sha256 now)) m.rk).generation
        rw [Function.update_self, NormalizedMutation.content, hvalue,
          Option.map_some, Cell.generation_put_some]
        exact le_refl _
    · rw [List.pairwise_append]
      refine ⟨h.increasing, List.pairwise_singleton _ _, ?_⟩
      intro a ha b hb hab
      rw [List.mem_singleton] at hb
      subst hb
      have hrk : a.rk = m.rk := hab
      have hbound := (h.stored a ha).2
      rw [hrk] at hbound
      exact Nat.lt_succ_of_le hbound

variable {ms : List ControlPlaneMutation}

theorem advanced_of_meaning {now : IsoText} {cells : Cells}
    {acc : Cells × List ControlPlaneRecord} (h : meaning env ms now cells = .ok acc) :
    Advanced cells acc := by
  rw [meaning] at h
  simp only [bind_eq_ok, commit] at h
  obtain ⟨-, -, at', -, normalized, -, seen, -, hfold⟩ := h
  have hstart : Advanced cells (cells, []) :=
    ⟨fun _ => le_refl _, fun _ hr => absurd hr List.not_mem_nil, List.Pairwise.nil⟩
  exact foldlM_invariant (fun m _ h hw => h.writeCell hw) hstart hfold

variable {s t : EmbeddedState}

theorem Sound.transact_cases (h : Sound env s) (hc : Collates env.localeCompare) {now : IsoText}
    {answer : Result (List ControlPlaneRecord)}
    (hon : FileM.on (transact env ms now) s = (answer, t)) : (∃ e, answer = .error e ∧ t = s)
    ∨ ∃ out, answer = .ok out ∧ Sound env t ∧ Advanced s.cells (t.cells, out) := by
  rcases h.transact_spec hc ms now with
    ⟨e, -, heq⟩ | ⟨at', p, -, -, hmean, hcells, hout⟩
  · rw [heq, Prod.mk.injEq] at hon
    exact .inl ⟨e, hon.1.symm, hon.2.symm⟩
  · rcases hout with ⟨hsound, -, heq⟩ | ⟨-, e, -, heq⟩
    · rw [heq, Prod.mk.injEq] at hon
      obtain ⟨rfl, rfl⟩ := hon
      refine .inr ⟨p.results, rfl, hsound, ?_⟩
      rw [hcells]
      exact advanced_of_meaning hmean
    · rw [heq, Prod.mk.injEq] at hon
      exact .inl ⟨e, hon.1.symm, hon.2.symm⟩

-- ===== purge

theorem on_tryCatch {α : Type} (x : FileM α) (handler : OperatorError → FileM α)
    (s : EmbeddedState) :
    FileM.on (tryCatch x handler) s = match FileM.on x s with
      | (.ok a, t) => (.ok a, t)
      | (.error e, t) => FileM.on (handler e) t := by
  rcases hx : FileM.on x s with ⟨_ | _, t⟩
  · have hx' : x s = (Except.error _, t) := hx
    simp only [FileM.on, ExceptT.run, StateT.run, tryCatch, tryCatchThe,
      MonadExceptOf.tryCatch, ExceptT.tryCatch, ExceptT.mk, bind, StateT.bind,
      hx']
  · have hx' : x s = (Except.ok _, t) := hx
    simp only [FileM.on, ExceptT.run, StateT.run, tryCatch, tryCatchThe,
      MonadExceptOf.tryCatch, ExceptT.tryCatch, ExceptT.mk, bind, StateT.bind,
      hx']
    rfl

theorem Sound.transact_throws (h : Sound env s) (hc : Collates env.localeCompare)
    {ms : List ControlPlaneMutation} {now : IsoText} {disk : Disk} {e : OperatorError}
    (hon : FileM.on (transact env ms now disk) s = (.error e, t)) :
    t = s ∨ disk = .unconfirmed ∧ ∃ out, FileM.on (transact env ms now) s = (.ok out, t) := by
  rw [on_transact_disk] at hon
  refine settled_error ?_ hon
  intro e' u hdurable
  rcases h.transact_cases hc hdurable with ⟨-, -, hsame⟩ | ⟨out, hout, -⟩
  · exact hsame
  · cases hout

/-- The file stays sound and no generation falls. -/
def Kept (env : StoreEnv) (s t : EmbeddedState) : Prop :=
  Sound env t ∧ ∀ rk, (s.cells rk).generation ≤ (t.cells rk).generation

theorem Sound.transact_kept (h : Sound env s) (hc : Collates env.localeCompare)
    (ms : List ControlPlaneMutation) (now : IsoText) (disk : Disk) :
    Kept env s (FileM.on (transact env ms now disk) s).2 := by
  have hsame : Kept env s s := ⟨h, fun _ => le_refl _⟩
  rw [on_transact_disk]
  rcases hon : FileM.on (transact env ms now) s with ⟨answer, t⟩
  rcases h.transact_cases hc hon with ⟨e, rfl, rfl⟩ | ⟨out, rfl, hsound, hadv⟩
  · exact hsame
  · cases disk with
    | lost => exact hsame
    | unconfirmed | durable => exact ⟨hsound, hadv.le⟩

theorem Sound.purgeEach_kept (h : Sound env s) (hc : Collates env.localeCompare) (ns : Id)
    (now : Instant) (disks : Nat → Disk) (records : List ControlPlaneRecord) (removed : Nat) :
    Kept env s (FileM.on (purgeEach env ns now disks records removed) s).2 := by
  induction records generalizing s removed with
  | nil => exact ⟨h, fun _ => le_refl _⟩
  | cons record rest ih =>
    have hone := h.transact_kept hc [deletion ns record.key] (some now) (disks removed)
    rw [purgeEach, on_bind, on_tryCatch, on_bind]
    rcases hon : FileM.on (transact env [deletion ns record.key] (some now) (disks removed)) s
      with ⟨e | out, t⟩
    · rw [hon] at hone
      by_cases hcode : e.code = .controlPlaneCasMismatch
      · simp only [if_pos hcode]
        have hrest := ih hone.1 removed
        exact ⟨hrest.1, fun rk => (hone.2 rk).trans (hrest.2 rk)⟩
      · simp only [if_neg hcode]
        exact hone
    · rw [hon] at hone
      have hrest := ih hone.1 (removed + 1)
      exact ⟨hrest.1, fun rk => (hone.2 rk).trans (hrest.2 rk)⟩

theorem Sound.purge_kept (h : Sound env s) (hc : Collates env.localeCompare) (ns : String)
    (now : IsoText) (disks : Nat → Disk) :
    Kept env s (FileM.on (purgeExpiredControlPlaneRecords env ns now disks) s).2 := by
  have hsame : Kept env s s := ⟨h, fun _ => le_refl _⟩
  rw [purgeExpiredControlPlaneRecords, on_lift_bind]
  cases hid : id ns "namespace" with
  | error e => exact hsame
  | ok validated =>
    simp only [on_lift_bind]
    cases now with
    | none => exact hsame
    | some at' =>
      simp only [iso]
      rw [on_bind, list, on_lift_bind, hid]
      simp only [h.on_read_bind, on_pure]
      exact h.purgeEach_kept hc ..

-- === snapshot and restore

def snapshotState (env : StoreEnv) (now : Instant) (s : EmbeddedState) : EmbeddedState :=
  { records := s.records.filter fun item => !expired item now
    tombstones := sortByKey env.localeCompare (·.rk) (s.tombstones
      ++ (s.records.filter fun item => expired item now).map (·.fence)) }

def EmbeddedState.toSnapshot (env : StoreEnv) (now : Instant)
    (t : EmbeddedState) : ControlPlaneSnapshot :=
  { createdAt := now, records := t.records, tombstones := some t.tombstones,
    digest := digest env.sha256 (snapshotBase now t.records t.tombstones) }

theorem Sound.on_snapshot (h : Sound env s) (now : Instant) : FileM.on (snapshot env (some now)) s
    = (.ok ((snapshotState env now s).toSnapshot env now), s) := by
  rw [snapshot, on_lift_bind]
  simp only [iso, h.on_read_bind]
  rfl

private theorem keys_snapshotState (now : Instant) (s : EmbeddedState) :
    ((snapshotState env now s).records.map (·.rk)
        ++ (snapshotState env now s).tombstones.map (·.rk)).Perm
      (s.records.map (·.rk) ++ s.tombstones.map (·.rk)) := by
  have hfences := (sortByKey_perm env.localeCompare
    ControlPlaneGenerationFence.rk (s.tombstones ++ (s.records.filter
      fun item => expired item now).map (·.fence))).map (·.rk)
  have hsplit := (List.filter_append_perm (fun item => expired item now) s.records).map (·.rk)
  rw [List.map_append, List.map_map] at hfences
  rw [List.map_append] at hsplit
  -- live ++ (fences ++ gone) ~ live ++ (gone ++ fences) ~ (gone ++ live) ++ fences
  refine (hfences.append_left _).trans ?_
  refine (List.perm_append_comm.append_left _).trans ?_
  rw [← List.append_assoc]
  refine (List.perm_append_comm.append_right _).trans ?_
  exact hsplit.append_right _

theorem Sound.snapshotState_valid (h : Sound env s) (now : Instant) :
    StateValid env (snapshotState env now s) where
  records := fun r hr => h.valid.records r (List.mem_filter.1 hr).1
  fences := by
    intro f hf
    rcases List.mem_append.1 ((sortByKey_perm ..).mem_iff.1 hf) with hf | hf
    · exact h.valid.fences f hf
    · obtain ⟨r, hr, rfl⟩ := List.mem_map.1 hf
      exact (h.valid.records r (List.mem_filter.1 hr).1).generation
  disjoint := (keys_snapshotState now s).nodup_iff.2 h.valid.disjoint

theorem Sound.snapshotState_sorted (h : Sound env s) (hc : Collates env.localeCompare)
    (now : Instant) : SortedByKey env.localeCompare (·.rk) (snapshotState env now s).records
    ∧ SortedByKey env.localeCompare (·.rk) (snapshotState env now s).tombstones :=
  ⟨h.records_sorted.filter _, sorted_sortByKey hc ..⟩

theorem Sound.faded_snapshotState (h : Sound env s) (now : Instant) (rk : String) :
    Faded (Content.gone now) (s.cells rk) ((snapshotState env now s).cells rk) := by
  have hvalid := h.snapshotState_valid now
  have hmem : ∀ f, f ∈ (snapshotState env now s).tombstones
      ↔ f ∈ s.tombstones ∨ ∃ r ∈ s.records, expired r now = true ∧ r.fence = f := by
    intro f
    rw [snapshotState, (sortByKey_perm ..).mem_iff, List.mem_append, List.mem_map]
    simp only [List.mem_filter, and_assoc]
  by_cases hrec : ∃ r ∈ s.records, r.rk = rk
  · obtain ⟨r, hr, rfl⟩ := hrec
    rw [EmbeddedState.cells, h.valid.disjoint.cellAt_record hr]
    cases hexp : expired r now with
    | true =>
      have hfence := hvalid.disjoint.cellAt_fence ((hmem r.fence).2 (.inr ⟨r, hr, hexp, rfl⟩))
      rw [EmbeddedState.cells, ← ControlPlaneRecord.fence_rk, hfence]
      exact Faded.fade _ _ hexp
    | false =>
      have hlive : r ∈ (snapshotState env now s).records :=
        List.mem_filter.2 ⟨hr, by simp [hexp]⟩
      rw [EmbeddedState.cells, hvalid.disjoint.cellAt_record hlive]
      exact Faded.same _
  · push Not at hrec
    have hnone : (snapshotState env now s).records.find? (fun r => r.rk == rk) = none :=
      find?_key_eq_none.2 fun r hr => hrec r (List.mem_filter.1 hr).1
    have hfences : (snapshotState env now s).tombstones.find?
        (fun f => f.rk == rk) = s.tombstones.find? fun f => f.rk == rk := by
      refine find?_key_congr h.valid.disjoint.fences_nodup
        hvalid.disjoint.fences_nodup ?_
      intro f hf
      rw [hmem]
      constructor
      · rintro (hin | ⟨r, hr, -, rfl⟩)
        · exact hin
        · exact absurd hf (hrec r hr)
      · exact .inl
    rw [EmbeddedState.cells, EmbeddedState.cells, cellAt, cellAt, hnone,
      find?_key_eq_none.2 hrec, hfences]
    exact Faded.same _

theorem on_restore_disk (taken : ControlPlaneSnapshot) (disk : Disk) :
    FileM.on (restoreUnchecked env taken disk) s
    = settled disk s (FileM.on (restoreUnchecked env taken) s) := by
  rw [restoreUnchecked, restoreUnchecked, on_lift_bind, on_lift_bind]
  cases normalizeSnapshot env.sha256 env.localeCompare taken with
  | error e => rfl
  | ok parts =>
    have hread : FileM.on (read env) s = (normalizeState env s, s) := rfl
    simp only [on_bind (read env), hread]
    cases normalizeState env s with
    | error e => rfl
    | ok current =>
      simp only [on_lift_bind]
      cases rejectIf (0 < current.records.length ∨ 0 < current.tombstones.length)
          .controlPlaneRestoreConflict
          "Restore refuses to overwrite existing control-plane records or generation fences." with
      | error e => rfl
      | ok _ => exact on_write_disk ..

theorem on_restore (hvalid : StateValid env t)
    (hsorted : SortedByKey env.localeCompare (·.rk) t.records
      ∧ SortedByKey env.localeCompare (·.rk) t.tombstones) (now : Instant) :
    (Bounded t → env.fits t = true → FileM.on (restoreUnchecked env (t.toSnapshot env now)) .empty
          = (.ok (), t)) ∧ ∀ {u}, FileM.on (restoreUnchecked env (t.toSnapshot env now)) .empty
          = (.ok (), u) → u = t ∧ Bounded t := by
  have hrecords : t.records.mapM (normalizeRecord env.sha256) = .ok t.records :=
    (mapM_eq_ok normalizeRecord_eq_ok).2 ⟨rfl, hvalid.records⟩
  have hfences : t.tombstones.mapM (normalizeFence "snapshot.tombstone") = .ok t.tombstones :=
    (mapM_eq_ok normalizeFence_eq_ok).2 ⟨rfl, hvalid.fences⟩
  have hdistinct : addDistinct .controlPlaneStoreInvalid
      "Snapshot contains duplicate identities or overlapping generation fences."
      [] (t.records.map (·.rk) ++ t.tombstones.map (·.rk))
      = .ok (t.records.map (·.rk) ++ t.tombstones.map (·.rk)).reverse := by
    rw [addDistinct_eq_ok]
    exact ⟨hvalid.disjoint, by simp, by simp⟩
  rw [restoreUnchecked, on_lift_bind, EmbeddedState.toSnapshot, normalizeSnapshot]
  by_cases hb : Bounded t
  · have hnot : ¬ (maxItems < t.tombstones.length ∨ maxItems < t.records.length) := by
      rw [Bounded] at hb
      omega
    simp only [rejectIf_of_not hnot, ok_bind, hrecords, hfences,
      sortByKey_eq_self hsorted.1, sortByKey_eq_self hsorted.2, hdistinct,
      ne_eq, not_true_eq_false, rejectIf_of_not, not_false_eq_true,
      sound_empty.on_read_bind, on_lift_bind]
    have hconflict : ¬ (0 < EmbeddedState.empty.records.length
        ∨ 0 < EmbeddedState.empty.tombstones.length) := by
      simp [EmbeddedState.empty]
    rw [rejectIf_of_not hconflict]
    rcases hvalid.on_write (s := EmbeddedState.empty) with
      ⟨-, hf, hw⟩ | ⟨hbound, e, -, hw⟩
    · refine ⟨fun _ _ => hw, ?_⟩
      intro u hu
      have hpair := hw.symm.trans hu
      exact ⟨(Prod.mk.inj hpair).2.symm, hb⟩
    · refine ⟨fun _ hf => absurd ⟨hb, hf⟩ hbound, ?_⟩
      intro u hu
      have hpair := hw.symm.trans hu
      cases (Prod.mk.inj hpair).1
  · have hover : maxItems < t.tombstones.length ∨ maxItems < t.records.length := by
      rw [Bounded] at hb
      omega
    refine ⟨fun hbound => absurd hbound hb, ?_⟩
    intro u hu
    simp only [rejectIf, if_pos hover, fail, error_bind] at hu
    cases (Prod.mk.inj hu).1

-- ===== after the restore

/-- Two families of cells that differ by faded bodies. -/
def FadedCells (now : Instant) (cells cells' : Cells) : Prop :=
  ∀ rk, Faded (Content.gone now) (cells rk) (cells' rk)

theorem gone_later {later : Instant} (h : now.val ≤ later.val) (c : Content)
    (hgone : c.gone now = true) : c.gone later = true := by
  rw [Content.gone, Option.any_eq_true] at hgone ⊢
  obtain ⟨at', hat, hle⟩ := hgone
  exact ⟨at', hat, by simp only [decide_eq_true_eq] at hle ⊢; omega⟩

theorem FadedCells.writeCell {cells cells' : Cells} {out : List ControlPlaneRecord}
    (h : FadedCells now cells cells') (sha256 : Hash) (later : Instant) (m : NormalizedMutation) :
    (∃ e, writeCell sha256 later (cells, out) m = .error e
        ∧ writeCell sha256 later (cells', out) m = .error e)
      ∨ ∃ a b, writeCell sha256 later (cells, out) m = .ok a
        ∧ writeCell sha256 later (cells', out) m = .ok b ∧ FadedCells now a.1 b.1 ∧ a.2 = b.2 := by
  have hgen := (h m.rk).generation_eq
  have hupdate : FadedCells now
      (Function.update cells m.rk ((cells m.rk).put (m.content sha256 later)))
      (Function.update cells' m.rk ((cells' m.rk).put (m.content sha256 later))) := by
    intro rk
    by_cases hrk : rk = m.rk
    · subst hrk
      rw [Function.update_self, Function.update_self]
      exact (h m.rk).put _
    · rw [Function.update_of_ne hrk, Function.update_of_ne hrk]
      exact h rk
  rw [ControlPlane.writeCell, ControlPlane.writeCell]
  cases hvalue : m.value with
  | none => exact .inr ⟨_, _, rfl, rfl, hupdate, rfl⟩
  | some value =>
    dsimp only
    rw [← hgen]
    by_cases hmax : maxSafeInteger ≤ (cells m.rk).generation
    · rw [rejectIf, if_pos hmax]
      exact .inl ⟨_, rfl, rfl⟩
    · rw [rejectIf_of_not hmax]
      exact .inr ⟨_, _, rfl, rfl, hupdate, rfl⟩

theorem FadedCells.meaning {cells cells' : Cells} (h : FadedCells now cells cells')
    (ms : List ControlPlaneMutation) {later : IsoText} (hlater : ∀ at' ∈ later, now.val ≤ at'.val) :
    (∃ e, meaning env ms later cells = .error e ∧ meaning env ms later cells' = .error e)
    ∨ ∃ a b, meaning env ms later cells = .ok a ∧ meaning env ms later cells' = .ok b
      ∧ FadedCells now a.1 b.1 ∧ a.2 = b.2 := by
  rw [ControlPlane.meaning, ControlPlane.meaning]
  cases checkBatch ms with
  | error e => exact .inl ⟨e, rfl, rfl⟩
  | ok _ =>
    cases later with
    | none => exact .inl ⟨_, rfl, rfl⟩
    | some at' =>
      have hle := hlater at' rfl
      simp only [iso, ok_bind]
      cases ms.mapM normalizeMutation with
      | error e => exact .inl ⟨e, rfl, rfl⟩
      | ok normalized =>
        have hcheck : normalized.foldlM (checkCell (Content.gone at') cells) []
            = normalized.foldlM
              (checkCell (Content.gone at') cells') [] := by
          refine foldlM_congr (fun seen m _ => ?_) []
          rw [checkCell, checkCell, (h m.rk).shows_eq fun c hc => gone_later hle c hc]
        simp only [ok_bind, commit, hcheck]
        cases normalized.foldlM (checkCell (Content.gone at') cells') [] with
        | error e => exact .inl ⟨e, rfl, rfl⟩
        | ok seen =>
          refine foldlM_related (R := fun (a b : Cells × List ControlPlaneRecord) =>
            FadedCells now a.1 b.1 ∧ a.2 = b.2) ?_ ⟨h, rfl⟩
          rintro ⟨a, out⟩ ⟨b, out'⟩ m - ⟨hab, hout⟩
          obtain rfl : out = out' := hout
          exact hab.writeCell env.sha256 at' m

/-- The answers of successive transactions on a file. -/
def answers (env : StoreEnv) : EmbeddedState → List (List ControlPlaneMutation × IsoText) →
    List (Result (List ControlPlaneRecord))
  | _, [] => []
  | s, (ms, now) :: calls =>
    let call := FileM.on (transact env ms now) s
    call.1 :: answers env call.2 calls

/-- A refusal for the bounds of the store: too many records, too many
fences or too large a file. -/
def BeyondBounds (answer : Result (List ControlPlaneRecord)) : Prop :=
  ∃ e : OperatorError, answer = .error e ∧ e.code = .controlPlaneStoreCorrupt

theorem Sound.transact_within (h : Sound env s) (hc : Collates env.localeCompare)
    {now : IsoText} (hin : ¬ BeyondBounds (FileM.on (transact env ms now) s).1) :
    (∀ {e}, meaning env ms now s.cells = .error e →
        FileM.on (transact env ms now) s = (.error e, s))
      ∧ ∀ {a}, meaning env ms now s.cells = .ok a →
        ∃ t, FileM.on (transact env ms now) s = (.ok a.2, t) ∧ Sound env t ∧ t.cells = a.1 := by
  rcases h.transact_spec hc ms now with
    ⟨e, hmean, hon⟩ | ⟨_, p, -, -, hmean, hcells, hout⟩
  · rw [hmean]
    refine ⟨fun he => ?_, fun ha => (nomatch ha)⟩
    rw [hon, Except.error.inj he]
  · rw [hmean]
    refine ⟨fun he => (nomatch he), fun ha => ?_⟩
    rw [← Except.ok.inj ha]
    rcases hout with ⟨hsound, -, hon⟩ | ⟨-, e, hcode, hon⟩
    · exact ⟨_, hon, hsound, hcells⟩
    · exact absurd ⟨e, by rw [hon], hcode⟩ hin

theorem answers_eq_of_faded (hc : Collates env.localeCompare) (hs : Sound env s)
    (ht : Sound env t) (h : FadedCells now s.cells t.cells)
    (calls : List (List ControlPlaneMutation × IsoText))
    (hlater : ∀ call ∈ calls, ∀ at' ∈ call.2, now.val ≤ at'.val)
    (hbounds : ∀ answer ∈ answers env s calls ++ answers env t calls,
      ¬ BeyondBounds answer) : answers env t calls = answers env s calls := by
  induction calls generalizing s t with
  | nil => rfl
  | cons call calls ih =>
    obtain ⟨ms, later⟩ := call
    have hrest : ∀ call ∈ calls, ∀ at' ∈ call.2, now.val ≤ at'.val :=
      fun call hcall => hlater call (List.mem_cons_of_mem _ hcall)
    have hlast : ∀ answer ∈
        answers env (FileM.on (transact env ms later) s).2 calls
          ++ answers env (FileM.on (transact env ms later) t).2 calls,
        ¬ BeyondBounds answer := by
      intro answer hin
      rcases List.mem_append.1 hin with hin | hin
      · exact hbounds _ (List.mem_append_left _ (List.mem_cons_of_mem _ hin))
      · exact hbounds _ (List.mem_append_right _ (List.mem_cons_of_mem _ hin))
    obtain ⟨hs_error, hs_ok⟩ := hs.transact_within hc
      (hbounds _ (List.mem_append_left _ (List.mem_cons_self ..)))
    obtain ⟨ht_error, ht_ok⟩ := ht.transact_within hc
      (hbounds _ (List.mem_append_right _ (List.mem_cons_self ..)))
    rw [answers, answers]
    rcases @FadedCells.meaning env _ _ _ h ms _
        (hlater _ (List.mem_cons_self ..)) with
      ⟨e, he, he'⟩ | ⟨a, b, ha, hb, hab, hres⟩
    · rw [hs_error he, ht_error he'] at hlast
      rw [hs_error he, ht_error he', ih hs ht h hrest hlast]
    · obtain ⟨s', hon, hsound, hcells⟩ := hs_ok ha
      obtain ⟨t', hon', hsound', hcells'⟩ := ht_ok hb
      rw [hon, hon'] at hlast
      rw [← hcells, ← hcells'] at hab
      rw [hon, hon', ih hsound hsound' hab hrest hlast, hres]

-- ===== runs

/-- What happens to the store: a transaction, a purge, or the move of
everything to a new store through a snapshot taken at `now`; and what
becomes of the writes. -/
inductive StoreCall
  | transact (mutations : List ControlPlaneMutation) (now : IsoText) (disk : Disk := .durable)
  | purge (ns : String) (now : IsoText) (disks : Nat → Disk := fun _ => .durable)
  | move (now : IsoText) (disk : Disk := .durable)

/-- The store's file, and every record its transactions stored, oldest
first. -/
structure Lineage where
  file : EmbeddedState
  assigned : List ControlPlaneRecord

def Lineage.start : Lineage := { file := .empty, assigned := [] }

/-- `restore` of a snapshot taken at `now` into an empty store; when one
of the two calls throws, the old store stays in use. -/
def moved (env : StoreEnv) (now : IsoText) (disk : Disk) (s : EmbeddedState) : EmbeddedState :=
  match (FileM.on (snapshot env now) s).1 with
  | .error _ => s
  | .ok taken =>
    match FileM.on (restoreUnchecked env taken disk) .empty with
    | (.error _, _) => s
    | (.ok _, t) => t

/-- What a transaction puts into the file: also one that throws after its
write went through. -/
def storedBy (env : StoreEnv) (ms : List ControlPlaneMutation) (now : IsoText) (disk : Disk)
    (s : EmbeddedState) : List ControlPlaneRecord :=
  match disk, (FileM.on (ControlPlane.transact env ms now) s).1 with
  | .lost, _ => []
  | _, .ok out => out
  | _, .error _ => []

theorem storedBy_error {ms : List ControlPlaneMutation} {now : IsoText} {disk : Disk}
    {e : OperatorError} (hon : FileM.on (transact env ms now) s = (.error e, t)) :
    storedBy env ms now disk s = [] := by
  cases disk <;> simp only [storedBy, hon]

theorem storedBy_ok {ms : List ControlPlaneMutation} {now : IsoText} (disk : Disk)
    {out : List ControlPlaneRecord} (hon : FileM.on (transact env ms now) s = (.ok out, t)) :
    ((settled disk s (FileM.on (transact env ms now) s)).2 = s ∧ storedBy env ms now disk s = [])
    ∨ (settled disk s (FileM.on (transact env ms now) s)).2 = t
      ∧ storedBy env ms now disk s = out := by
  cases disk <;> simp [storedBy, settled, hon]

def Lineage.step (env : StoreEnv) (l : Lineage) : StoreCall → Lineage
  | .transact ms now disk =>
    { file := (FileM.on (ControlPlane.transact env ms now disk) l.file).2
      assigned := l.assigned ++ storedBy env ms now disk l.file }
  | .purge ns now disks =>
    { l with
      file := (FileM.on (purgeExpiredControlPlaneRecords env ns now disks) l.file).2 }
  | .move now disk => { l with file := moved env now disk l.file }

def lineageSteps (env : StoreEnv) : Lineage → StoreCall → Lineage → Prop :=
  stepsOf fun l call => some (l.step env call)

theorem Sound.moved_kept (h : Sound env s) (hc : Collates env.localeCompare) (now : IsoText)
    (disk : Disk) : Kept env s (moved env now disk s) := by
  have hsame : Kept env s s := ⟨h, fun _ => le_refl _⟩
  rw [moved]
  cases now with
  | none => exact hsame
  | some at' =>
    rw [h.on_snapshot at']
    dsimp only
    split
    · exact hsame
    · next u t hon =>
      obtain ⟨rfl, hb⟩ := (on_restore (h.snapshotState_valid at')
        (h.snapshotState_sorted hc at') at').2 (settled_ok ((on_restore_disk ..).symm.trans hon))
      have hsorted := h.snapshotState_sorted hc at'
      exact ⟨⟨h.snapshotState_valid at', hb, hsorted.1, hsorted.2⟩,
        fun rk => (h.faded_snapshotState at' rk).generation_eq.le⟩

/-- The invariant of a run: everything returned is at or below its key's
generation, and per key the returned generations increase. -/
structure LineageInv (env : StoreEnv) (l : Lineage) : Prop where
  sound : Sound env l.file
  below : ∀ r ∈ l.assigned, r.generation ≤ (l.file.cells r.rk).generation
  increasing : l.assigned.Pairwise fun a b =>
    a.rk = b.rk → a.generation < b.generation

variable {l : Lineage}

theorem LineageInv.kept (h : LineageInv env l) (hkept : Kept env l.file t) :
    LineageInv env { l with file := t } :=
  ⟨hkept.1, fun r hr => (h.below r hr).trans (hkept.2 r.rk), h.increasing⟩

/-- A transaction, a purge or a move of the store. -/
theorem LineageInv.step (h : LineageInv env l) (hc : Collates env.localeCompare)
    (call : StoreCall) : LineageInv env (l.step env call) := by
  cases call with
  | transact ms now disk =>
    rw [Lineage.step, on_transact_disk]
    rcases hon : FileM.on (ControlPlane.transact env ms now) l.file with
      ⟨answer, t⟩
    rcases h.sound.transact_cases hc hon with
      ⟨e, rfl, rfl⟩ | ⟨out, rfl, hsound, hadv⟩
    · rw [storedBy_error hon, List.append_nil]
      exact h
    have hstored := storedBy_ok disk hon
    rw [hon] at hstored
    rcases hstored with ⟨hlost, hnone⟩ | ⟨hfile, hout⟩
    · rw [hlost, hnone, List.append_nil]
      exact h
    · rw [hfile, hout]
      refine ⟨hsound, ?_, ?_⟩
      · intro r hr
        rcases List.mem_append.1 hr with hr | hr
        · exact (h.below r hr).trans (hadv.le r.rk)
        · exact (hadv.stored r hr).2
      · refine List.pairwise_append.2 ⟨h.increasing, hadv.increasing, ?_⟩
        intro a ha b hb hab
        have hold := h.below a ha
        have hnew := (hadv.stored b hb).1
        rw [hab] at hold
        omega
  | purge ns now disks => exact h.kept (h.sound.purge_kept hc ns now disks)
  | move now disk => exact h.kept (h.sound.moved_kept hc now disk)

theorem lineageInv_of_run (hc : Collates env.localeCompare) {calls : List StoreCall}
    (hrun : Run (lineageSteps env) Lineage.start calls l) : LineageInv env l := by
  refine hrun.invariant ⟨sound_empty, ?_, List.Pairwise.nil⟩ ?_
  · intro r hr
    exact absurd hr List.not_mem_nil
  · intro s t call hs hstep
    rw [lineageSteps, stepsOf, Option.some.injEq] at hstep
    rw [← hstep]
    exact hs.step hc call

/-- Over every run: the generations stored for a key strictly increase; a
transaction that throws changes nothing, or its write went through before
it threw and the file is the one it leaves when it succeeds; no key has a
record and a fence; a snapshot within the bounds restores into an empty store, and
from then on the two stores answer every sequence of transactions not
before the snapshot alike, as long as neither refuses one for its
bounds. -/
theorem generations_increase (hc : Collates env.localeCompare) {l : Lineage}
    {calls : List StoreCall} (hrun : Run (lineageSteps env) Lineage.start calls l) :
    (l.assigned.Pairwise fun a b => a.namespace = b.namespace → a.key = b.key →
        a.generation < b.generation)
      ∧ (∀ ms now disk e t, FileM.on (transact env ms now disk) l.file = (.error e, t) → t = l.file
          ∨ disk = .unconfirmed ∧ ∃ out, FileM.on (transact env ms now) l.file = (.ok out, t))
      ∧ (∀ r ∈ l.file.records, ∀ f ∈ l.file.tombstones,
        ¬ (r.namespace = f.namespace ∧ r.key = f.key))
      ∧ ∀ now, ∃ taken fences, taken.tombstones = some fences
        ∧ FileM.on (snapshot env (some now)) l.file = (.ok taken, l.file)
        ∧ (fences.length ≤ maxItems →
          env.fits { records := taken.records, tombstones := fences } = true →
          ∃ t, FileM.on (restoreUnchecked env taken) .empty = (.ok (), t))
        ∧ ∀ t, FileM.on (restoreUnchecked env taken) .empty = (.ok (), t) →
          ∀ later : List (List ControlPlaneMutation × IsoText),
            (∀ call ∈ later, ∀ at' ∈ call.2, now.val ≤ at'.val) →
            (∀ answer ∈ answers env l.file later ++ answers env t later, ¬ BeyondBounds answer) →
            answers env t later = answers env l.file later := by
  have hinv := lineageInv_of_run hc hrun
  have hsound := hinv.sound
  refine ⟨?_, ?_, ?_, ?_⟩
  · refine hinv.increasing.imp ?_
    intro a b hab hns hkey
    exact hab (by rw [ControlPlaneRecord.rk, ControlPlaneRecord.rk, hns, hkey])
  · intro ms now disk e t hon
    exact hsound.transact_throws hc hon
  · rintro r hr f hf ⟨hns, hkey⟩
    refine hsound.valid.disjoint.ne hr hf ?_
    rw [ControlPlaneRecord.rk, ControlPlaneGenerationFence.rk, hns, hkey]
  · intro now
    have hvalid := hsound.snapshotState_valid now
    have hsorted := hsound.snapshotState_sorted hc now
    obtain ⟨hrestores, honly⟩ := on_restore hvalid hsorted now
    refine ⟨_, _, rfl, hsound.on_snapshot now, ?_, ?_⟩
    · intro hlen hfits
      refine ⟨_, hrestores ⟨?_, hlen⟩ hfits⟩
      exact (List.length_filter_le ..).trans hsound.bounded.1
    · intro t hon later hlater hbounds
      obtain ⟨rfl, hb⟩ := honly hon
      exact answers_eq_of_faded hc hsound ⟨hvalid, hb, hsorted.1, hsorted.2⟩
        (hsound.faded_snapshotState now) later hlater hbounds

-- ===== at the bounds

theorem StateValid.applyBatch_create (h : StateValid env s) {raw : ControlPlaneMutation}
    {m : NormalizedMutation} (hraw : normalizeMutation raw = .ok m)
    (hexpected : m.expectedGeneration = none) {value : JsonObject}
    (hvalue : m.value = some value) (hrecords : ∀ r ∈ s.records, r.rk ≠ m.rk)
    (hfences : ∀ f ∈ s.tombstones, f.rk ≠ m.rk) (now : Instant) :
    ∃ p, applyBatch env [raw] now s = .ok p
    ∧ p.records = s.records ++ [makeRecord env.sha256 m.namespace m.key 1 value now m.expiresAt]
    ∧ p.tombstones = s.tombstones := by
  have hnd := h.disjoint.records_nodup
  have hindex := indexes_indexOf hnd
  have hfree : s.cells m.rk = .free := by
    rw [EmbeddedState.cells, cellAt, find?_key_eq_none.2 hrecords, find?_key_eq_none.2 hfences]
  have hcheck : checkMutation s.records (indexOf s.records) now [] m = .ok [m.rk] := by
    rw [hindex.checkMutation_eq hnd s.tombstones, checkCell]
    change (do
      rejectIf (m.rk ∈ []) _ _
      if m.admits ((s.cells m.rk).shows (Content.gone now)) then _ else _) = _
    rw [hfree]
    simp [Cell.shows, NormalizedMutation.admits, hexpected]
  have habsent : indexOf s.records m.rk = none := by
    have hcurrent := hindex.current_eq hnd m.rk
    rw [find?_key_eq_none.2 hrecords] at hcurrent
    cases hidx : indexOf s.records m.rk with
    | none => rfl
    | some i =>
      obtain ⟨r, hr, hrk⟩ := (hindex m.rk i).1 hidx
      exact absurd hrk (hrecords r (List.mem_of_getElem? hr))
  have hprior : priorGeneration m.rk
      ⟨s.records, indexOf s.records, s.tombstones, []⟩ = 0 := by
    rw [PassInv.priorGeneration_eq ⟨h.disjoint, hindex⟩]
    change (s.cells m.rk).generation = 0
    rw [hfree]
    rfl
  have hput : ∀ record : ControlPlaneRecord, record.rk = m.rk → (putRecord record
          ⟨s.records, indexOf s.records, s.tombstones, []⟩).records
        = s.records ++ [record]
      ∧ (putRecord record ⟨s.records, indexOf s.records, s.tombstones, []⟩).tombstones
        = s.tombstones := by
    intro record hrk
    have hkeep : (s.tombstones.filter fun f => f.rk != m.rk) = s.tombstones := by
      rw [List.filter_eq_self]
      intro f hf
      simpa using hfences f hf
    simp only [putRecord, hrk, habsent, hkeep, and_self]
  refine ⟨_, ?_, (hput _ ?_).1, (hput _ ?_).2⟩
  · simp only [applyBatch, List.mapM_cons, List.mapM_nil, hraw, ok_bind,
      pure_bind, List.foldlM_cons, List.foldlM_nil, hcheck, applyMutation,
      hvalue, hprior]
    rfl
  · rfl
  · rfl

/-- A platform whose collation is the order of the texts, and whose files
stay within their bound: a million records with the values and keys used
below take some 261 bytes each. -/
def plainStore : StoreEnv where
  sha256 := sha256Utf8
  localeCompare a b := if a ≤ b then (if b ≤ a then 0 else -1) else 1
  fits _ := true

theorem plainStore_le (a b : String) : plainStore.localeCompare a b ≤ 0 ↔ a ≤ b := by
  rw [plainStore]
  dsimp only
  split
  · next hle =>
    split
    · simpa using hle
    · simpa using hle
  · next hlt => simpa using hlt

theorem plainStore_collates : Collates plainStore.localeCompare where
  total := by
    intro a b
    rw [plainStore_le, plainStore_le]
    exact le_total a b
  trans := by
    intro a b c hab hbc
    rw [plainStore_le] at hab hbc ⊢
    exact hab.trans hbc

/-- 1970-01-01T00:00:00.000Z and the millisecond after it. -/
def epoch : Instant := ⟨0, by omega⟩

def tick : Instant := ⟨1, by omega⟩

def keyChar (d : Nat) : Char :=
  if d < 26 then Char.ofNat (97 + d) else Char.ofNat (22 + d)

theorem keyChar_mod (d : Nat) : isIdChar (keyChar (d % 32)) = true := by
  have hall : ∀ d < 32, isIdChar (keyChar d) = true := by decide
  exact hall _ (Nat.mod_lt _ (by omega))

theorem keyChar_inj {d e : Nat} (hd : d < 32) (he : e < 32)
    (h : keyChar d = keyChar e) : d = e := by
  have hall : ∀ d < 32, ∀ e < 32, keyChar d = keyChar e → d = e := by decide
  exact hall d hd e he h

/-- Distinct keys of four characters. -/
def fillKey (i : Nat) : Id :=
  ⟨String.ofList [keyChar (i % 32), keyChar (i / 32 % 32),
    keyChar (i / 1024 % 32), keyChar (i / 32768 % 32)], by
    simp only [isId, String.toList_ofList, List.all_cons, keyChar_mod]
    rfl⟩

theorem fillKey_inj {i j : Nat} (hi : i < 1048576) (hj : j < 1048576)
    (h : fillKey i = fillKey j) : i = j := by
  have hlist := String.ofList_injective (congrArg Subtype.val h)
  simp only [List.cons.injEq, and_true] at hlist
  obtain ⟨h0, h1, h2, h3⟩ := hlist
  have e0 := keyChar_inj (Nat.mod_lt _ (by omega)) (Nat.mod_lt _ (by omega)) h0
  have e1 := keyChar_inj (Nat.mod_lt _ (by omega)) (Nat.mod_lt _ (by omega)) h1
  have e2 := keyChar_inj (Nat.mod_lt _ (by omega)) (Nat.mod_lt _ (by omega)) h2
  have e3 := keyChar_inj (Nat.mod_lt _ (by omega)) (Nat.mod_lt _ (by omega)) h3
  omega

theorem fillSpace_isId : isId "a" = true := by decide

def fillSpace : Id := ⟨"a", fillSpace_isId⟩

/-- The first record of a filled store expires after a millisecond. -/
def fillExpiry (i : Nat) : Option Instant :=
  if i = 0 then some tick else none

/-- The create of the `i`-th record. -/
def fillMutation (i : Nat) : ControlPlaneMutation :=
  { «namespace» := fillSpace.val, key := (fillKey i).val,
    expectedGeneration := none, value := .obj [],
    expiresAt := (fillExpiry i).map some }

def fillRecord (i : Nat) : ControlPlaneRecord :=
  makeRecord sha256Utf8 fillSpace (fillKey i) 1 [] epoch (fillExpiry i)

theorem normalizeMutation_fill (i : Nat) : normalizeMutation (fillMutation i)
    = .ok ⟨fillSpace, fillKey i, none, some [], fillExpiry i⟩ := by
  have hid : ∀ (v : Id) (label : String), id v.val label = .ok v := by
    intro v label
    rw [id, dif_pos v.2]
    rfl
  have hvalue : mutationValue (.obj []) = .ok (some []) := by
    rw [mutationValue, objectValue_obj.2 ⟨rfl, by decide⟩]
    · rfl
    · intro h
      cases h
  have hexpiry : ((fillExpiry i).map some).mapM (iso · "expiresAt") = .ok (fillExpiry i) := by
    rw [fillExpiry]
    split
    · rfl
    · rfl
  simp only [normalizeMutation, fillMutation, hid, hvalue, hexpiry, ok_bind]
  rfl

theorem fill_rk_ne {i j : Nat} (hi : i < 1048576) (hj : j < 1048576) (hij : i ≠ j) :
    recordKey fillSpace (fillKey i) ≠ recordKey fillSpace (fillKey j) := by
  intro h
  rw [recordKey, recordKey] at h
  have hkey : (fillKey i).val = (fillKey j).val := String.append_right_inj _ |>.1 h
  exact hij (fillKey_inj hi hj (Subtype.ext hkey))

def fillCalls (n : Nat) : List StoreCall :=
  (List.range n).map fun i => .transact [fillMutation i] (some epoch)

/-- The file after the first `n` of them. -/
structure Filled (n : Nat) (s : EmbeddedState) : Prop where
  sound : Sound plainStore s
  records : s.records.Perm ((List.range n).map fillRecord)
  fences : s.tombstones = []

variable {n : Nat}

theorem Filled.length (h : Filled n s) : s.records.length = n := by
  rw [h.records.length_eq, List.length_map, List.length_range]

theorem Sound.create (h : Sound plainStore s)
    (hrecords : ∀ r ∈ s.records, r.rk ≠ recordKey fillSpace (fillKey n))
    (hfences : ∀ f ∈ s.tombstones, f.rk ≠ recordKey fillSpace (fillKey n)) (now : Instant) :
    (s.records.length < maxItems ∧ ∃ out t,
        FileM.on (transact plainStore [fillMutation n] (some now)) s = (.ok out, t)
        ∧ Sound plainStore t ∧ t.records.Perm (s.records ++ [makeRecord sha256Utf8 fillSpace
          (fillKey n) 1 [] now (fillExpiry n)]) ∧ t.tombstones.Perm s.tombstones)
      ∨ (maxItems ≤ s.records.length ∧ ∃ e,
        FileM.on (transact plainStore [fillMutation n] (some now)) s = (.error e, s)) := by
  obtain ⟨p, hp, hprecords, hpfences⟩ := h.valid.applyBatch_create
    (normalizeMutation_fill n) rfl rfl hrecords hfences now
  have hperm : (p.state plainStore).records.Perm p.records := sortByKey_perm ..
  have hperm' : (p.state plainStore).tombstones.Perm p.tombstones :=
    sortByKey_perm ..
  have hlength : (p.state plainStore).records.length = s.records.length + 1 := by
    rw [hperm.length_eq, hprecords, List.length_append, List.length_singleton]
  rcases h.transact_spec plainStore_collates [fillMutation n] (some now) with
    ⟨e, hmean, -⟩ | ⟨at', q, hat, hq, -, -, hout⟩
  · have hcells := (h.valid.applyBatch_spec [fillMutation n] now).1
    rw [hp] at hcells
    rw [meaning] at hmean
    change (do
      let normalized ← [fillMutation n].mapM normalizeMutation
      commit _ (Content.gone now) normalized now s.cells) = _ at hmean
    rw [← hcells] at hmean
    cases hmean
  · obtain rfl := Option.some.inj hat
    obtain rfl := Except.ok.inj (hp.symm.trans hq)
    rcases hout with ⟨hsound, -, hon⟩ | ⟨hbound, e, -, hon⟩
    · refine .inl ⟨?_, _, _, hon, hsound, ?_, ?_⟩
      · have hle := hsound.bounded.1
        omega
      · rw [hprecords] at hperm
        exact hperm
      · rw [← hpfences]
        exact hperm'
    · refine .inr ⟨?_, e, hon⟩
      by_contra hlt
      refine hbound ⟨⟨by omega, ?_⟩, rfl⟩
      rw [hperm'.length_eq, hpfences]
      exact h.bounded.2

theorem Filled.fresh (h : Filled n s) (hn : n < 1048576) :
    ∀ r ∈ s.records, r.rk ≠ recordKey fillSpace (fillKey n) := by
  intro r hr
  obtain ⟨i, hi, rfl⟩ := List.mem_map.1 (h.records.mem_iff.1 hr)
  rw [List.mem_range] at hi
  exact fill_rk_ne (by omega) hn (by omega)

theorem Filled.step (h : Filled n s) (hn : n < maxItems) :
    ∃ out t, FileM.on (transact plainStore [fillMutation n] (some epoch)) s
        = (.ok out, t) ∧ Filled (n + 1) t := by
  have hfences : ∀ f ∈ s.tombstones, f.rk ≠ recordKey fillSpace (fillKey n) := by
    rw [h.fences]
    intro f hf
    cases hf
  rcases h.sound.create (h.fresh (by rw [maxItems] at hn; omega)) hfences epoch
    with ⟨-, out, t, hon, hsound, hrecords, hperm⟩ | ⟨hfull, -⟩
  · refine ⟨out, t, hon, hsound, ?_, ?_⟩
    · rw [List.range_succ, List.map_append]
      exact hrecords.trans (h.records.append_right _)
    · rw [h.fences] at hperm
      exact hperm.eq_nil
  · rw [h.length] at hfull
    omega

theorem exists_filled (hn : n ≤ maxItems) :
    ∃ l, Run (lineageSteps plainStore) Lineage.start (fillCalls n) l ∧ Filled n l.file := by
  induction n with
  | zero => exact ⟨_, Run.nil, sound_empty, List.Perm.nil, rfl⟩
  | succ n ih =>
    obtain ⟨l, hrun, hfilled⟩ := ih (by omega)
    obtain ⟨out, t, hon, hnext⟩ := hfilled.step hn
    refine ⟨l.step plainStore (.transact [fillMutation n] (some epoch)), ?_, ?_⟩
    · rw [fillCalls, List.range_succ, List.map_append]
      exact Run.snoc hrun rfl
    · rw [Lineage.step, hon]
      exact hnext

/-- A key whose record expires, is purged and is created again. -/
def recreatedCalls : List StoreCall :=
  [.transact [fillMutation 0] (some epoch), .purge "a" (some tick),
    .transact [fillMutation 0] (some tick)]

/-- A key is created, deleted and created again. -/
theorem generations_increase_recreated :
    ∃ l, Run (lineageSteps plainStore) Lineage.start recreatedCalls l
    ∧ l.assigned.map (·.generation) = [1, 2]
    ∧ l.assigned.Pairwise fun a b => a.namespace = b.namespace →
      a.key = b.key → a.generation < b.generation := by
  have hrun : Run (lineageSteps plainStore) Lineage.start recreatedCalls
      (recreatedCalls.foldl (Lineage.step plainStore) Lineage.start) :=
    run_of_exec rfl
  exact ⟨_, hrun, by decide +kernel,
    (generations_increase plainStore_collates hrun).1⟩

/-- A store of a million records, one of them expired, refuses another
create; the store restored from its snapshot accepts it. And a create
that throws after its rename has stored its record. -/
theorem restored_accepts_more :
    (∃ e t, FileM.on (transact plainStore [fillMutation 0] (some epoch) .unconfirmed) .empty
        = (.error e, t) ∧ t.records ≠ [])
      ∧ ∃ l taken t, Run (lineageSteps plainStore) Lineage.start (fillCalls 1000000) l
      ∧ FileM.on (snapshot plainStore (some tick)) l.file = (.ok taken, l.file)
      ∧ FileM.on (restoreUnchecked plainStore taken) .empty = (.ok (), t)
      ∧ (∃ e, (FileM.on (transact plainStore [fillMutation 1000000] (some tick))
          l.file).1 = .error e)
      ∧ ∃ out, (FileM.on (transact plainStore [fillMutation 1000000] (some tick))
          t).1 = .ok out := by
  obtain ⟨l, hrun, hfilled⟩ := exists_filled (le_refl maxItems)
  have hsound := hfilled.sound
  have hfresh := hfilled.fresh (by rw [maxItems]; omega)
  have hlength := hfilled.length
  have hnofences : ∀ f ∈ l.file.tombstones, f.rk ≠ recordKey fillSpace (fillKey maxItems) := by
    rw [hfilled.fences]
    intro f hf
    cases hf
  -- the first record is expired at the snapshot, so one record becomes a fence
  have hexpired : fillRecord 0 ∈ l.file.records :=
    hfilled.records.mem_iff.2 (List.mem_map_of_mem (List.mem_range.2 (by rw [maxItems]; omega)))
  have hvalid := hsound.snapshotState_valid tick
  have hsorted := hsound.snapshotState_sorted plainStore_collates tick
  have hfewer : (snapshotState plainStore tick l.file).records.length < maxItems := by
    rw [← hlength]
    exact List.length_filter_lt_length_iff_exists.2
      ⟨fillRecord 0, hexpired, by decide⟩
  have hfences : (snapshotState plainStore tick l.file).tombstones.length ≤ maxItems := by
    rw [snapshotState, (sortByKey_perm ..).length_eq, hfilled.fences,
      List.nil_append, List.length_map, ← hlength]
    exact List.length_filter_le ..
  have hbounded : Bounded (snapshotState plainStore tick l.file) :=
    ⟨hfewer.le, hfences⟩
  have hlate : ∃ e t,
      FileM.on (transact plainStore [fillMutation 0] (some epoch) .unconfirmed) .empty
        = (.error e, t) ∧ t.records ≠ [] := by
    have hstart : Filled 0 EmbeddedState.empty := ⟨sound_empty, List.Perm.nil, rfl⟩
    obtain ⟨out, t, hon, hone⟩ := hstart.step (by decide)
    refine ⟨writeFailed, t, ?_, ?_⟩
    · rw [on_transact_disk, hon]
      rfl
    · exact List.ne_nil_of_length_pos (by rw [hone.length]; omega)
  refine ⟨hlate, l, _, _, hrun, hsound.on_snapshot tick,
    (on_restore hvalid hsorted tick).1 hbounded rfl, ?_, ?_⟩
  · rcases hsound.create hfresh hnofences tick with ⟨hlt, -⟩ | ⟨-, e, hon⟩
    · omega
    · exact ⟨e, congrArg Prod.fst hon⟩
  · have hrestored : Sound plainStore (snapshotState plainStore tick l.file) :=
      ⟨hvalid, hbounded, hsorted.1, hsorted.2⟩
    rcases hrestored.create
        (fun r hr => hfresh r (List.mem_filter.1 hr).1)
        (by
          intro f hf
          have hin := (sortByKey_perm ..).mem_iff.1 hf
          rw [hfilled.fences, List.nil_append] at hin
          obtain ⟨r, hr, rfl⟩ := List.mem_map.1 hin
          exact hfresh r (List.mem_filter.1 hr).1) tick with
      ⟨-, out, t, hon, -⟩ | ⟨hge, -⟩
    · exact ⟨out, congrArg Prod.fst hon⟩
    · omega

end OperatorRuntime.ControlPlane
