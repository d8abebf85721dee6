/-
What each operation of the controller keeps: triples over `WorldInv`, so
the state a crash leaves is covered with the one a return leaves.

`#mutate` asks of an operation a change that may be `Handed` to it.
`dispatch` goes through a state in which a remediation is reserved and not
submitted, which only a crash exposes.
-/
import OperatorRuntime.Desired.Proofs.Tracks

namespace OperatorRuntime.Desired

open Lib

variable {platform : Platform} {env : Env} {log old : List Event} {file : DesiredStateFile}
  {c : DesiredStateContract}

-- ===== writing

theorem put_put {state : DesiredStateFile} {c c' : DesiredStateContract} (hid : c'.id = c.id) :
    (state.put c).put c' = state.put c' := by
  have hall : ∀ l : List DesiredStateContract,
      updateFirst (fun item => item.id == c.id) (fun _ => c')
          (updateFirst (fun item => item.id == c.id) (fun _ => c) l)
        = updateFirst (fun item => item.id == c.id) (fun _ => c') l := by
    intro l
    induction l with
    | nil => rfl
    | cons a l ih =>
      by_cases ha : a.id = c.id
      · simp [updateFirst, ha]
      · simp [updateFirst, ha, ih]
  simp only [DesiredStateFile.put, hid, hall]

theorem Inv.touch {state : DesiredStateFile} {c' : DesiredStateContract}
    (h : Inv platform (state.put c) log) (hs : c'.standing = c.standing)
    (htracks : Tracks log c.standing) : Inv platform (state.put c') log := by
  have hid : c'.id = c.id := congrArg Standing.id hs
  have hput : Inv platform ((state.put c).put c') ([].reverse ++ log) :=
    h.put hid (fun _ h => (nomatch h)) (hs ▸ htracks) h.lawful
  rwa [put_put hid] at hput

theorem starts_append (l l' : List Event) : starts (l ++ l') = starts l ++ starts l' := by
  induction l with
  | nil => rfl
  | cons event l ih =>
    cases event with
    | reserved id digest operationId startedAt => exact congrArg (startedAt :: ·) ih
    | created id policy => exact ih
    | paused id => exact ih
    | resumed id => exact ih
    | closed id outcome byReconcile => exact ih
    | healthy id => exact ih
    | submitted id request => exact ih

theorem starts_quiet {events : List Event} (h : ∀ event ∈ events, event.quiet = true) :
    starts events.reverse = [] := by
  induction events with
  | nil => rfl
  | cons event events ih =>
    rw [List.reverse_cons, starts_append, ih fun e he => h e (List.mem_cons_of_mem _ he)]
    have hquiet := h event (List.mem_cons_self ..)
    cases event <;> first | rfl | cases hquiet

variable {w₀ : World}

theorem persist_triple {state : DesiredStateFile} {events : List Event}
    (h₀ : WorldInv platform env.now old w₀) (h : Inv platform state (events.reverse ++ w₀.log))
    (hnow : ∀ t ∈ starts events.reverse, t = env.now) :
    Script.Triple (fun w => w = w₀) (persist platform state events)
      (fun _ w => WorldInv platform env.now old w ∧ w.file = state ∧ w.log = events.reverse ++ w₀.log)
      (WorldInv platform env.now old) := by
  refine Script.Triple.lift_bind ?_
  intro _ hvalid
  have hwritten : WorldInv platform env.now old
      { w₀ with file := state, written := state :: w₀.written, log := events.reverse ++ w₀.log } := by
    obtain ⟨new, hlog, hnew⟩ := h₀.since
    refine ⟨⟨h, List.forall_mem_cons.2 ⟨hvalid, h₀.written⟩⟩, h₀.clock, events.reverse ++ new, ?_, ?_⟩
    · dsimp only
      rw [hlog, List.append_assoc]
    · intro t ht
      rw [starts_append] at ht
      rcases List.mem_append.1 ht with ht | ht
      · exact hnow t ht
      · exact hnew t ht
  refine Script.Triple.write ?_ ?_
  · intro w hw
    rw [hw]
    exact hwritten
  · intro w hw
    rw [hw]
    exact ⟨hwritten, rfl, rfl⟩

theorem readState_bind {α : Type} {f : DesiredStateFile → Op α} {R : α → World → Prop}
    {C : World → Prop} (h : Script.Triple (fun w => w = w₀) (f w₀.file) R C) :
    Script.Triple (fun w => w = w₀) (readState platform >>= f) R C := by
  have hread : Script.Triple (fun w => w = w₀) (readState platform)
      (fun state w => w = w₀ ∧ state = w₀.file) C := by
    refine Script.Triple.read_bind (Script.Triple.lift_bind ?_)
    exact fun _ _ => Script.Triple.pure fun w hw => ⟨hw, rfl⟩
  refine hread.bind ?_
  intro state w hw
  obtain ⟨hw, rfl⟩ := hw
  exact h w hw

/-- A change handed to `#mutate`: the log accounts for what it will write. -/
structure Handed (platform : Platform) (now : Instant) (old : List Event)
    (file : DesiredStateFile) (change : Change) (w : World) : Prop where
  world : WorldInv platform now old w
  inv : Inv platform (file.put change.contract) (change.events.reverse ++ w.log)
  quiet : ∀ event ∈ change.events, event.quiet = true

theorem Fits.handed {change : Change} (hfits : Fits w₀.log c change)
    (h₀ : WorldInv platform env.now old w₀) : Handed platform env.now old w₀.file change w₀ where
  world := h₀
  inv := h₀.inv.fits hfits
  quiet := hfits.quiet

theorem mutate_triple {fn : DesiredStateFile → Op Change}
    (hfn : ∀ w₀, WorldInv platform env.now old w₀ → Script.Triple (fun w => w = w₀) (fn w₀.file)
      (Handed platform env.now old w₀.file) (WorldInv platform env.now old)) :
    Script.Triple (WorldInv platform env.now old) (mutate platform fn) (fun _ => WorldInv platform env.now old)
      (WorldInv platform env.now old) := by
  refine Script.Triple.fix ?_
  intro w₀ h₀
  refine readState_bind ((hfn w₀ h₀).bind ?_)
  intro change
  refine Script.Triple.fix ?_
  intro w hw
  have hnow : ∀ t ∈ starts change.events.reverse, t = env.now := by
    intro t ht
    rw [starts_quiet hw.quiet] at ht
    cases ht
  refine (persist_triple hw.world hw.inv hnow).bind ?_
  exact fun _ => Script.Triple.pure fun w hw => hw.1

theorem fits_triple {change : Change} (h₀ : WorldInv platform env.now old w₀)
    (hfits : Fits w₀.log c change) : Script.Triple (fun w => w = w₀) (pure change : Op Change)
      (Handed platform env.now old w₀.file) (WorldInv platform env.now old) := by
  refine Script.Triple.pure ?_
  intro w hw
  rw [hw]
  exact hfits.handed h₀

-- ===== operations

theorem reserve_standing (contract : DesiredStateContract) (requestId : Uuid) (now : Instant) :
    (reserve contract requestId now).standing
      = { contract.standing with
          paused := false, active := true
          times := pushTime contract.standing.times now } := by
  simp [reserve, DesiredStateContract.standing, pushTime, List.map_drop]

theorem Tracks.submit {s : Standing} (h : Tracks log s) (id : Uuid) (request : SubmitRequest) :
    Tracks (.submitted id request :: log) s := by
  by_cases hid : id = s.id
  · subst hid
    have htenure : tenure s.id (.submitted s.id request :: log)
        = .submitted s.id request :: tenure s.id log := if_pos rfl
    refine ⟨h.policy, ?_, ?_, ?_, ?_, ?_⟩
    · rw [htenure]
      exact h.paused
    · rw [htenure]
      exact h.active
    · rw [htenure]
      exact h.failures
    · rw [htenure]
      exact h.times
    · rw [htenure]
      exact fun n hn => h.marked n hn
  · exact h.frame hid

theorem standing_reason (c : DesiredStateContract) (reason : Option String) :
    ({ c with lastReason := reason } : DesiredStateContract).standing = c.standing := rfl

theorem dispatch_triple {change : Change} (h₀ : WorldInv platform env.now old w₀)
    (hfits : Fits w₀.log c change) (hidle : change.contract.activeOperationId = none)
    (hadmitted : Admitted change.contract.policy env.now
      (tenure c.id (change.events.reverse ++ w₀.log))) :
    Script.Triple (fun w => w = w₀) (dispatch platform env w₀.file change)
      (Handed platform env.now old w₀.file) (WorldInv platform env.now old) := by
  have hbefore := hfits.tracks
  have hlawful := h₀.inv.lawful.quiets hfits.quiet
  generalize hlog : change.events.reverse ++ w₀.log = log at hbefore hlawful hadmitted
  rw [← hfits.id] at hadmitted
  have hpaused : change.contract.standing.paused = false :=
    hbefore.paused.symm.trans hadmitted.limits.notPaused
  have hactive : change.contract.standing.active = false := by
    show change.contract.activeOperationId.isSome = false
    rw [hidle]
    rfl
  let requestId := remediationRequestId platform change.contract
  let contract := reserve change.contract requestId env.now
  let request := submitRequest contract requestId
  let reserved : Event := .reserved contract.id contract.contractDigest requestId env.now
  have htracks : Tracks (reserved :: log) contract.standing := by
    have hstanding : contract.standing
        = { change.contract.standing with
            active := true, times := pushTime change.contract.standing.times env.now } := by
      rw [reserve_standing, ← hpaused]
    rw [hstanding]
    exact hbefore.reserve hactive requestId env.now
  have hreserved : Lawful platform (reserved :: log) := by
    have hlength : change.contract.standing.times.length
        = change.contract.remediationHistory.length := List.length_map _
    have hkept := hlawful.reserve hbefore env.now
    rw [hlength] at hkept
    exact hkept
  have hevents : (change.events ++ [reserved]).reverse ++ w₀.log = reserved :: log := by
    rw [List.reverse_append, List.append_assoc, hlog]
    rfl
  have hinv : Inv platform (w₀.file.put contract)
      ((change.events ++ [reserved]).reverse ++ w₀.log) := by
    refine h₀.inv.put hfits.id ?_ (hevents ▸ htracks) (hevents ▸ hreserved)
    intro event hevent
    rcases List.mem_append.1 hevent with hin | hin
    · exact hfits.own event hin
    · rw [List.mem_singleton.1 hin]
      exact hfits.id
  have hnow : ∀ t ∈ starts (change.events ++ [reserved]).reverse, t = env.now := by
    intro t ht
    rw [List.reverse_append, starts_append, starts_quiet hfits.quiet, List.append_nil] at ht
    exact List.mem_singleton.1 ht
  refine (persist_triple h₀ hinv hnow).bind ?_
  intro _
  -- from here on the reservation is durable
  have hsubmitted : Lawful platform (.submitted contract.id request :: reserved :: log) :=
    hlawful.submit hreserved hbefore.policy hadmitted
  have hwrite : Script.Triple
      (fun w => WorldInv platform env.now old w ∧ w.file = w₀.file.put contract
        ∧ w.log = (change.events ++ [reserved]).reverse ++ w₀.log)
      (Script.write fun w : World =>
        { w with log := .submitted contract.id request :: w.log } : Op PUnit)
      (fun _ w => WorldInv platform env.now old w ∧ w.file = w₀.file.put contract
        ∧ w.log = .submitted contract.id request :: reserved :: log) (WorldInv platform env.now old) := by
    have hkept : ∀ w : World, WorldInv platform env.now old w → w.log = reserved :: log →
        WorldInv platform env.now old { w with log := .submitted contract.id request :: w.log } := by
      intro w hw hwlog
      obtain ⟨new, hold, hnew⟩ := hw.since
      refine ⟨⟨⟨hw.inv.ids, fun x hx => (hw.inv.tracks x hx).submit _ _, ?_⟩, hw.written⟩,
        hw.clock, .submitted contract.id request :: new, congrArg (_ :: ·) hold, hnew⟩
      show Lawful platform (.submitted contract.id request :: w.log)
      rw [hwlog]
      exact hsubmitted
    refine Script.Triple.write ?_ ?_
    · intro w hw
      exact hkept w hw.1 (hw.2.2.trans hevents)
    · intro w hw
      have hwlog := hw.2.2.trans hevents
      refine ⟨hkept w hw.1 hwlog, hw.2.1, ?_⟩
      show .submitted contract.id request :: w.log = _
      rw [hwlog]
  refine hwrite.bind ?_
  intro _
  cases env.submit request with
  | none => exact Script.Triple.lift fun _ _ _ h => absurd h fail_ne_ok
  | some operation =>
    refine Script.Triple.lift_bind ?_
    intro _ _
    refine Script.Triple.pure ?_
    intro w hw
    obtain ⟨hw, hfile, hwlog⟩ := hw
    have hfinal : Inv platform (w₀.file.put contract) w.log := hfile ▸ hw.inv
    have hstill : Tracks w.log contract.standing := by
      rw [hwlog]
      exact htracks.submit _ _
    exact ⟨hw, hfinal.touch (standing_reason _ _) hstill, fun _ h => (nomatch h)⟩

theorem reconcile_triple (idInput : String) :
    Script.Triple (WorldInv platform env.now old) (Desired.reconcile platform env idInput)
      (fun _ => WorldInv platform env.now old) (WorldInv platform env.now old) := by
  refine mutate_triple ?_
  intro w₀ h₀
  refine Script.Triple.lift_bind ?_
  intro contract hrequire
  have htracks := h₀.inv.tracks contract (requireContract_ok hrequire)
  split
  · next hpaused =>
    refine Script.Triple.lift ?_
    intro w change hw hok
    rw [hw]
    exact (reconcilePaused_fits htracks hok).handed h₀
  · next hnot =>
    refine Script.Triple.lift_bind ?_
    intro progress hactive
    have hfits := reconcileActive_fits htracks hnot hactive
    cases progress with
    | done change => exact fits_triple h₀ hfits
    | more change =>
      obtain ⟨hfits, hnot', hidle⟩ := hfits
      refine Script.Triple.lift_bind ?_
      intro progress hassess
      have hadmits := assess_fits hfits hnot' hidle hassess
      cases progress with
      | done change' => exact fits_triple h₀ hadmits
      | more change' =>
        obtain ⟨hfits', hidle', hadmitted⟩ := hadmits
        exact dispatch_triple h₀ hfits' hidle' hadmitted

theorem pause_triple (idInput : String) (cancelActive : Bool) :
    Script.Triple (WorldInv platform env.now old) (Desired.pause platform env idInput cancelActive)
      (fun _ => WorldInv platform env.now old) (WorldInv platform env.now old) := by
  refine mutate_triple ?_
  intro w₀ h₀
  refine Script.Triple.lift_bind ?_
  intro contract hrequire
  have htracks := h₀.inv.tracks contract (requireContract_ok hrequire)
  let paused := { contract with
    status := DesiredStateStatus.paused
    lastReason := some "Desired-state reconciliation is paused.", updatedAt := env.now }
  have hpaused : Tracks (.paused contract.id :: w₀.log) paused.standing := htracks.pause
  have hinv : Inv platform (w₀.file.put paused) ([Event.paused contract.id].reverse ++ w₀.log) := by
    refine h₀.inv.put rfl ?_ hpaused (h₀.inv.lawful.quiet rfl)
    intro event hevent
    rw [List.mem_singleton.1 hevent]
    rfl
  refine (persist_triple h₀ hinv fun _ ht => (nomatch ht)).bind ?_
  intro _
  have hkept : ∀ change : Change, Fits (.paused contract.id :: w₀.log) paused change →
      ∀ w : World, WorldInv platform env.now old w → w.file = w₀.file.put paused →
        w.log = .paused contract.id :: w₀.log → Handed platform env.now old w₀.file change w := by
    intro change hfits w hw hfile hwlog
    have hput := hw.inv.fits (hwlog ▸ hfits)
    rw [hfile, put_put hfits.id] at hput
    exact ⟨hw, hput, hfits.quiet⟩
  split
  · next active hactive =>
    cases env.cancel active with
    | none => exact Script.Triple.lift fun _ _ _ h => absurd h fail_ne_ok
    | some operation =>
      refine Script.Triple.lift_bind ?_
      intro _ _
      refine Script.Triple.lift_bind ?_
      intro closed hclosed
      refine Script.Triple.pure ?_
      intro w hw
      refine hkept _ ?_ w hw.1 hw.2.1 hw.2.2
      obtain ⟨hid, -, hfailures, -⟩ := closeHistory_fields hclosed
      have hsome : paused.activeOperationId.isSome = true := by
        rw [hactive]
        rfl
      rw [hid]
      refine hpaused.closing hsome hclosed (.inr hfailures.ge) ?_
      rfl
  · refine Script.Triple.pure ?_
    intro w hw
    exact hkept _ (hpaused.still rfl) w hw.1 hw.2.1 hw.2.2

theorem resume_triple (idInput : String) :
    Script.Triple (WorldInv platform env.now old) (Desired.resume platform env idInput)
      (fun _ => WorldInv platform env.now old) (WorldInv platform env.now old) := by
  refine mutate_triple ?_
  intro w₀ h₀
  refine Script.Triple.lift_bind ?_
  intro contract hrequire
  have htracks := h₀.inv.tracks contract (requireContract_ok hrequire)
  refine Script.Triple.lift_bind ?_
  intro _ _
  refine Script.Triple.lift_bind ?_
  intro _ _
  refine Script.Triple.lift_bind ?_
  intro reason _
  refine fits_triple (c := contract) h₀ ⟨rfl, ?_, ?_, ?_⟩
  · cases reason with
    | none => simp [Event.contract]
    | some reason => simp [Event.contract]
  · cases reason with
    | none => simp [Event.quiet]
    | some reason => simp [Event.quiet]
  · cases reason with
    | none => exact htracks.resume.healthy contract.consecutiveFailures
    | some reason => exact htracks.resume

-- ===== creation

theorem tracks_newContract (id : Uuid) (terms : ContractTerms) (now : Instant) :
    Tracks (.created id terms.policy :: log) (newContract platform id terms now).standing :=
  tracks_created id terms.policy _ _

theorem Inv.add {contracts : List DesiredStateContract} {events : List Event}
    (h : Inv platform file log) (hsub : contracts.Sublist file.contracts)
    (hfresh : ∀ x ∈ file.contracts, x.id ≠ c.id) (hown : ∀ event ∈ events, event.contract = c.id)
    (hquiet : ∀ event ∈ events, event.quiet = true)
    (htracks : Tracks (events.reverse ++ log) c.standing) :
    Inv platform { contracts := contracts ++ [c] } (events.reverse ++ log) where
  ids := by
    rw [List.map_append, List.nodup_append']
    refine ⟨h.ids.sublist (hsub.map _), List.nodup_singleton _, ?_⟩
    intro id hid hid'
    obtain ⟨x, hx, rfl⟩ := List.mem_map.1 hid
    exact hfresh x (hsub.subset hx) (List.mem_singleton.1 hid')
  tracks := by
    intro x hx
    rcases List.mem_append.1 hx with hold | hnew
    · have hin := hsub.subset hold
      refine (h.tracks x hin).frames ?_
      intro event hevent heq
      exact hfresh x hin (heq.symm.trans (hown event hevent))
    · rw [List.mem_singleton.1 hnew]
      exact htracks
  lawful := h.lawful.quiets hquiet

theorem reclaim_sublist {contracts kept : List DesiredStateContract}
    (h : reclaim contracts = .ok kept) : kept.Sublist contracts := by
  rw [reclaim] at h
  split at h
  · split at h
    · exact absurd h fail_ne_ok
    · rw [← Except.ok.inj h]
      exact List.eraseIdx_sublist ..
  · rw [← Except.ok.inj h]

theorem create_triple (input : CreateInput) :
    Script.Triple (WorldInv platform env.now old) (Desired.create platform env input)
      (fun _ => WorldInv platform env.now old) (WorldInv platform env.now old) := by
  refine Script.Triple.lift_bind ?_
  rintro ⟨contractId, terms⟩ -
  refine Script.Triple.fix ?_
  intro w₀ h₀
  refine readState_bind ?_
  dsimp only
  split
  · next existing hfind =>
    refine Script.Triple.lift_bind ?_
    intro _ _
    have hinv : Inv platform w₀.file ([].reverse ++ w₀.log) := h₀.inv
    refine (persist_triple h₀ hinv fun _ ht => (nomatch ht)).bind ?_
    exact fun _ => Script.Triple.pure fun w hw => hw.1
  · next hfind =>
    refine Script.Triple.lift_bind ?_
    intro contracts hreclaim
    refine Script.Triple.lift_bind ?_
    intro reason _
    let id := contractId.getD env.randomUUID
    have hfresh : ∀ x ∈ w₀.file.contracts, x.id ≠ id := by
      intro x hx hid
      have hnone := List.find?_eq_none.1 hfind x hx
      exact hnone (beq_iff_eq.2 hid)
    have hsub := reclaim_sublist hreclaim
    have hnew : Tracks (.created id terms.policy :: w₀.log)
        (newContract platform id terms env.now).standing := tracks_newContract id terms env.now
    cases reason with
    | none =>
      have hinv : Inv platform
          { contracts := contracts
              ++ [{ newContract platform id terms env.now with status := .healthy }] }
          ([Event.created id terms.policy, .healthy id].reverse ++ w₀.log) :=
        h₀.inv.add hsub hfresh (by simp [Event.contract, newContract]) (by simp [Event.quiet])
          (hnew.healthy 0)
      refine (persist_triple h₀ hinv fun _ ht => (nomatch ht)).bind ?_
      exact fun _ => Script.Triple.pure fun w hw => hw.1
    | some reason =>
      have hinv : Inv platform
          { contracts := contracts
              ++ [{ newContract platform id terms env.now with lastReason := some reason }] }
          ([Event.created id terms.policy].reverse ++ w₀.log) :=
        h₀.inv.add hsub hfresh (by simp [Event.contract, newContract]) (by simp [Event.quiet])
          hnew
      refine (persist_triple h₀ hinv fun _ ht => (nomatch ht)).bind ?_
      exact fun _ => Script.Triple.pure fun w hw => hw.1

/-- One act, by the triple of its operation, cut after its last write. -/
theorem step_sound {w w' : World} {act : Act} (h : Sound platform w)
    (hstep : step platform w act = some w') : WorldInv platform act.env.now w.log w' := by
  obtain rfl := Option.some.inj hstep
  have hstart : WorldInv platform act.env.now w.log { w with clock := act.env.now.val } :=
    ⟨⟨h.inv, h.written⟩, rfl, [], rfl, fun _ ht => (nomatch ht)⟩
  cases hcall : act.call with
  | create input => exact (create_triple input).upTo hstart hstart act.writes
  | reconcile contractId => exact (reconcile_triple contractId).upTo hstart hstart act.writes
  | pause contractId cancelActive =>
    exact (pause_triple contractId cancelActive).upTo hstart hstart act.writes
  | resume contractId => exact (resume_triple contractId).upTo hstart hstart act.writes

end OperatorRuntime.Desired
