/-
Generations as fencing tokens. What a transaction returned for a key shuts
out every writer that still expects an earlier generation of it, for good:
of two writers that read the same record, only one replaces it.
-/
import OperatorRuntime.ControlPlane.Proofs.Generations
import OperatorRuntime.ControlPlane.Proofs.Postgres
import OperatorRuntime.Lib.Passes

namespace OperatorRuntime.ControlPlane

open Lib

variable {env : StoreEnv}

theorem admits_of_check {cells : Cells} {gone : Content → Bool} {seen out : List String}
    {ms : List NormalizedMutation} (h : ms.foldlM (checkCell gone cells) seen = .ok out)
    {m : NormalizedMutation} (hm : m ∈ ms) : m.admits ((cells m.rk).shows gone) = true := by
  induction ms generalizing seen with
  | nil => cases hm
  | cons x ms ih =>
    rw [List.foldlM_cons] at h
    obtain ⟨_, hx, h⟩ := bind_eq_ok.1 h
    rcases List.mem_cons.1 hm with rfl | hm
    · rw [checkCell] at hx
      obtain ⟨_, -, hx⟩ := bind_eq_ok.1 hx
      split at hx
      · next hadmits => exact hadmits
      · split at hx <;> cases hx
    · exact ih h hm

theorem generation_of_shows {β : Type} {gone : β → Bool} {c : Cell β} {g : Nat}
    (h : c.shows gone = some g) : c.generation = g := by
  cases c with
  | free | fence => cases h
  | live g' b =>
    rw [Cell.shows] at h
    split at h
    · cases h
    · exact Option.some.inj h

theorem expects_of_normalize {m : ControlPlaneMutation} {n : NormalizedMutation}
    (h : normalizeMutation m = .ok n) {g : Nat} (hexpects : m.expectedGeneration = some (.int g)) :
    n.expectedGeneration = some g ∧ n.namespace.val = m.namespace ∧ n.key.val = m.key := by
  rw [normalizeMutation] at h
  simp only [bind_eq_ok] at h
  obtain ⟨expected, hexpected, ns, hns, key, hkey, _, -, _, -, hsame⟩ := h
  rw [← Except.ok.inj hsame]
  refine ⟨?_, (id_eq_ok hns).symm, (id_eq_ok hkey).symm⟩
  rw [hexpects, Option.mapM_some] at hexpected
  obtain ⟨k, hk, hsome⟩ := bind_eq_ok.1 hexpected
  rw [← Except.ok.inj hsome, (integer_nat.1 hk).1]

/-- A generation that was given out is a fence: whoever still expects an
earlier one of the key is refused and changes nothing, whatever was deleted,
purged or moved to another store in between. -/
theorem stale_writer_refused (hc : Collates env.localeCompare) {l : Lineage}
    {calls : List StoreCall} (hrun : Run (lineageSteps env) Lineage.start calls l)
    {r : ControlPlaneRecord} (hr : r ∈ l.assigned) {ms : List ControlPlaneMutation}
    {m : ControlPlaneMutation} (hm : m ∈ ms)
    (hkey : m.namespace = r.namespace.val ∧ m.key = r.key.val) {g : Nat}
    (hexpects : m.expectedGeneration = some (.int g)) (hstale : g < r.generation)
    (now : IsoText) (disk : Disk) :
    ∃ e, FileM.on (transact env ms now disk) l.file = (.error e, l.file) := by
  have hinv := lineageInv_of_run hc hrun
  rw [on_transact_disk]
  rcases hinv.sound.transact_spec hc ms now with ⟨e, -, heq⟩ | ⟨at', p, -, -, hmean, -, hout⟩
  · exact ⟨e, by rw [heq]; rfl⟩
  exfalso
  rw [meaning] at hmean
  simp only [bind_eq_ok, commit] at hmean
  obtain ⟨-, -, _, -, normalized, hnormalized, seen, hcheck, -⟩ := hmean
  obtain ⟨n, hn, hnorm⟩ := exists_answer_of_mapM hnormalized hm
  obtain ⟨hg, hns, hk⟩ := expects_of_normalize hnorm hexpects
  have hrk : n.rk = r.rk := by
    rw [NormalizedMutation.rk, ControlPlaneRecord.rk, Subtype.ext (hns.trans hkey.1),
      Subtype.ext (hk.trans hkey.2)]
  have hadmits := admits_of_check hcheck hn
  rw [NormalizedMutation.admits, hg, hrk] at hadmits
  have hgeneration := generation_of_shows (beq_iff_eq.1 hadmits)
  have hbelow := hinv.below r hr
  omega

/-- After the key was created again, a writer that holds the generation of
its first record. -/
theorem stale_writer_refused_recreated : ∃ l r e,
    Run (lineageSteps plainStore) Lineage.start recreatedCalls l ∧ r ∈ l.assigned
    ∧ FileM.on (transact plainStore [{ fillMutation 0 with expectedGeneration := some (.int 1) }]
          (some tick)) l.file = (.error e, l.file) := by
  have hrun : Run (lineageSteps plainStore) Lineage.start recreatedCalls
      (recreatedCalls.foldl (Lineage.step plainStore) Lineage.start) :=
    run_of_exec rfl
  have hlast : ∃ r ∈ (recreatedCalls.foldl (Lineage.step plainStore) Lineage.start).assigned,
      ((fillMutation 0).namespace = r.namespace.val ∧ (fillMutation 0).key = r.key.val)
        ∧ 1 < r.generation := by
    decide +kernel
  obtain ⟨r, hr, hkey, hstale⟩ := hlast
  obtain ⟨e, he⟩ := stale_writer_refused plainStore_collates hrun hr
    (m := { fillMutation 0 with expectedGeneration := some (.int 1) }) (List.mem_singleton_self _)
    hkey (g := 1) rfl hstale (some tick) .durable
  exact ⟨_, r, e, hrun, hr, he⟩

end OperatorRuntime.ControlPlane
