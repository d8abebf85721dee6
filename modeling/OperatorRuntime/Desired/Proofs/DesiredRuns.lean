/-
The laws of the controller over whole runs, and the run of one contract
that is remediated over and over: its history is cut at 200 entries, so
from the 202nd remediation on both the operation id and the count of the
day are taken from a history that no longer grows.
-/
import OperatorRuntime.Desired.Proofs.Operations
import OperatorRuntime.JsonText

namespace OperatorRuntime.Desired

open Lib

variable {platform : Platform} {acts : List Act} {w : World} {id : Uuid}

-- ===== reachable worlds

theorem sound_start : Sound platform World.start where
  inv := ⟨List.nodup_nil, fun _ h => (nomatch h), lawful_nil⟩
  written := fun _ h => (nomatch h)

theorem sound_run (hrun : Run (stepsOf (step platform)) World.start acts w) : Sound platform w :=
  hrun.invariant sound_start fun hs hstep => (step_sound hs hstep).toSound

/-- With a clock that does not go back, the starts are in order. -/
structure Timely (w : World) : Prop where
  ordered : (starts w.log).Pairwise fun later earlier => earlier.val ≤ later.val
  past : ∀ t ∈ starts w.log, t.val ≤ w.clock

/-- One act at a clock that does not go back. -/
theorem Timely.step {w' : World} {act : Act} (h : Timely w) (hs : Sound platform w)
    (hstep : step platform w act = some w') (hforward : Forward w act) : Timely w' := by
  have hnext := step_sound hs hstep
  obtain ⟨new, hlog, hnew⟩ := hnext.since
  have hstarts : starts w'.log = starts new ++ starts w.log := by
    rw [hlog, starts_append]
  refine ⟨?_, ?_⟩
  · rw [hstarts, List.pairwise_append]
    refine ⟨?_, h.ordered, ?_⟩
    · refine List.pairwise_of_forall_mem_list ?_
      intro a ha b hb
      rw [hnew a ha, hnew b hb]
    · intro a ha b hb
      rw [hnew a ha]
      exact le_trans (h.past b hb) hforward
  · intro t ht
    rw [hnext.clock]
    rw [hstarts] at ht
    rcases List.mem_append.1 ht with ht | ht
    · rw [hnew t ht]
    · exact le_trans (h.past t ht) hforward

theorem timely_run (hrun : Run (Where (stepsOf (step platform)) Forward) World.start acts w) :
    Sound platform w ∧ Timely w := by
  refine hrun.invariant (I := fun w => Sound platform w ∧ Timely w)
    ⟨sound_start, List.Pairwise.nil, fun _ h => (nomatch h)⟩ ?_
  intro s t act hs hstep
  exact ⟨(step_sound hs.1 hstep.1).toSound, hs.2.step hs.1 hstep.1 hstep.2⟩

-- ===== identities

theorem markText_inj {a b : Hex64 × Nat} (h : markText id a = markText id b) :
    a.1 = b.1 ∧ min a.2 maxHistory = min b.2 maxHistory := by
  have hwf : ∀ (digest : Hex64) (epoch : Nat), Json.WellFormed (.obj [("contractId", .str id.val),
      ("contractDigest", .str digest.val), ("remediationEpoch", .num (toString epoch))]) := by
    intro digest epoch
    have hkeys : ["contractId", "contractDigest", "remediationEpoch"].Nodup := by decide
    refine Json.WellFormed.obj hkeys ?_
    simp only [List.forall_mem_cons]
    refine ⟨.str _, .str _, .num (Json.isNumberText_toString epoch), ?_⟩
    exact fun _ h => (nomatch h)
  have hform := (Json.canonicalJson_inj (hwf _ _) (hwf _ _)).1 h
  refine ⟨?_, ?_⟩
  · exact Subtype.ext (Json.str.inj
      (Json.field_eq_of_canonicalize_eq (k := "contractDigest") hform (hwf _ _) rfl rfl))
  · exact Json.toString_inj (Json.num.inj
      (Json.field_eq_of_canonicalize_eq (k := "remediationEpoch") hform (hwf _ _) rfl rfl))

theorem Lawful.lower {log : List Event} (h : Lawful platform log) {digest : Hex64} {m n : Nat}
    (hmark : (digest, n) ∈ marks id log) (hle : m ≤ n) : (digest, m) ∈ marks id log := by
  induction n with
  | zero =>
    obtain rfl : m = 0 := by omega
    exact hmark
  | succ n ih =>
    rcases Nat.lt_succ_iff_lt_or_eq.1 (Nat.lt_succ_of_le hle) with hlt | rfl
    · exact ih (h.closed id digest n hmark) (by omega)
    · exact hmark

theorem Lawful.marks_of_nodup {log : List Event} (h : Lawful platform log)
    (hnodup : (reservedIds id log).Nodup) :
    (marks id log).Nodup ∧ ∀ mark ∈ marks id log, mark.2 ≤ maxHistory := by
  rw [h.ids id] at hnodup
  refine ⟨hnodup.of_map _, ?_⟩
  intro mark hmark
  by_contra hover
  -- the marks 200 and 201 share their text
  have hfull := h.lower (m := maxHistory) hmark (by omega)
  have hnext := h.lower (m := maxHistory + 1) hmark (by omega)
  have htext : platform.operationId (markText id (mark.1, maxHistory))
      = platform.operationId (markText id (mark.1, maxHistory + 1)) := by
    have hmin : min (maxHistory + 1) maxHistory = maxHistory := Nat.min_eq_right (Nat.le_succ _)
    rw [markText, markText, hmin, Nat.min_self]
  have heq := List.inj_on_of_nodup_map hnodup hfull hnext htext
  exact absurd (Prod.mk.inj heq).2 (Nat.ne_of_lt (Nat.lt_succ_self _))

/-- The operation ids reserved under a contract id are distinct exactly when
no contract reserves more than 201 remediations in its life, and no two
contracts made under the id on the same terms both reserve one. What is
submitted was reserved, once each. -/
theorem remediation_ids_distinct (platform : Platform) (acts : List Act) (w : World)
    (hrun : Run (stepsOf (step platform)) World.start acts w) (id : Uuid)
    (hfree : Json.CollisionFree platform.operationId ((marks id w.log).map (markText id))) :
    (submittedIds id w.log).Sublist (reservedIds id w.log) ∧ ((reservedIds id w.log).Nodup
        ↔ (marks id w.log).Nodup ∧ ∀ mark ∈ marks id w.log, mark.2 ≤ maxHistory) := by
  have hlawful := (sound_run hrun).inv.lawful
  refine ⟨hlawful.submitted id, hlawful.marks_of_nodup, ?_⟩
  intro h
  obtain ⟨hnodup, hlow⟩ := h
  rw [hlawful.ids id]
  refine hnodup.map_on ?_
  intro a ha b hb heq
  have htext := hfree _ (List.mem_map_of_mem ha) _ (List.mem_map_of_mem hb) heq
  obtain ⟨hdigest, hmin⟩ := markText_inj htext
  rw [Nat.min_eq_left (hlow a ha), Nat.min_eq_left (hlow b hb)] at hmin
  exact Prod.ext hdigest hmin

-- ===== daily limit

theorem isoDay_congr {a b : Instant} (h : Instant.utcDay a = Instant.utcDay b) :
    isoDay a = isoDay b := by
  unfold isoDay
  rw [h]

theorem starts_tenure_sublist (id : Uuid) (log : List Event) :
    (starts (tenure id log)).Sublist (starts log) := by
  induction log with
  | nil => exact List.Sublist.refl _
  | cons event log ih =>
    have hlog : starts (event :: log) = starts [event] ++ starts log :=
      starts_append [event] log
    rw [hlog]
    by_cases hid : event.contract = id
    · subst hid
      by_cases hcreated : ∃ policy, event = .created event.contract policy
      · obtain ⟨policy, hcreated⟩ := hcreated
        have hnil : tenure event.contract (event :: log) = [] := by
          rw [hcreated]
          exact if_pos rfl
        rw [hnil]
        exact List.nil_sublist _
      · rw [tenure_own fun policy heq => hcreated ⟨policy, heq⟩,
          show starts (event :: tenure event.contract log)
            = starts [event] ++ starts (tenure event.contract log) from starts_append [event] _]
        exact (List.Sublist.refl _).append ih
    · rw [tenure_of_ne hid]
      exact ih.trans (List.sublist_append_right ..)

theorem countP_take {α : Type} {p : α → Bool} {l : List α}
    (h : l.Pairwise fun a b => p b = true → p a = true) (n : Nat) :
    (l.take n).countP p = min n (l.countP p) := by
  induction l generalizing n with
  | nil => simp
  | cons a l ih =>
    rw [List.pairwise_cons] at h
    cases n with
    | zero => simp
    | succ n =>
      rw [List.take_succ_cons, List.countP_cons, List.countP_cons, ih h.2]
      by_cases ha : p a = true
      · simp only [ha, if_true]
        omega
      · have hnone : l.countP p = 0 := by
          rw [List.countP_eq_zero]
          exact fun b hb hpb => ha (h.1 b hb hpb)
        simp only [ha, hnone]
        simp

theorem startsOn_lt {times : List Instant} {now : Instant} {limit : Int}
    (hordered : (now :: times).Pairwise fun later earlier => earlier.val ≤ later.val)
    (hrecent : ((times.take maxHistory).countP fun t => isoDay t == isoDay now : Int) < limit)
    (hfew : limit ≤ maxHistory ∨ startsOn now times ≤ maxHistory) :
    (startsOn now times : Int) < limit := by
  rw [List.pairwise_cons] at hordered
  have hclosed : times.Pairwise fun a b => (Instant.utcDay b == Instant.utcDay now) = true →
      (Instant.utcDay a == Instant.utcDay now) = true := by
    refine (List.Pairwise.and_mem.1 hordered.2).imp ?_
    intro a b hab hb
    obtain ⟨ha, -, hle⟩ := hab
    have hpast := hordered.1 a ha
    rw [beq_iff_eq] at hb ⊢
    unfold Instant.utcDay at hb ⊢
    omega
  have hcount : min maxHistory (startsOn now times)
      ≤ (times.take maxHistory).countP fun t => isoDay t == isoDay now := by
    rw [startsOn, ← countP_take hclosed]
    refine List.countP_mono_left ?_
    intro t _ ht
    exact beq_iff_eq.2 (isoDay_congr (beq_iff_eq.1 ht))
  rcases hfew with hlimit | hfew
  · omega
  · rw [Nat.min_eq_right hfew] at hcount
    omega

/-- With a clock that does not go back, every state written is valid, and
every submission answers a reservation made within the limits of the policy
the contract was created with; the daily one where it is at most 200, or
no more than 200 remediations of the contract started that day. -/
theorem remediation_limits (platform : Platform) (acts : List Act) (w : World)
    (hrun : Run (Where (stepsOf (step platform)) Forward) World.start acts w) :
    (∀ state ∈ w.written, validateState platform state = .ok ())
    ∧ ∀ id request rest, .submitted id request :: rest <:+ w.log → ∃ digest now before policy,
        rest = .reserved id digest request.requestId now :: before
          ∧ policyOf id before = some policy ∧ Limits policy now (tenure id before)
          ∧ (policy.maxRemediationsPerDay ≤ maxHistory
              ∨ startsOn now (starts (tenure id before)) ≤ maxHistory →
            (startsOn now (starts (tenure id before)) : Int) < policy.maxRemediationsPerDay) := by
  obtain ⟨hsound, htimely⟩ := timely_run hrun
  refine ⟨hsound.written, ?_⟩
  intro id request rest hsuffix
  obtain ⟨digest, now, before, policy, rfl, hpolicy, hadmitted⟩ :=
    hsound.inv.lawful.answers id request rest hsuffix
  refine ⟨digest, now, before, policy, rfl, hpolicy, hadmitted.limits, ?_⟩
  obtain ⟨after, hlog⟩ := hsuffix
  have hordered : (now :: starts before).Pairwise fun later earlier => earlier.val ≤ later.val := by
    have hall := htimely.ordered
    rw [← hlog, starts_append] at hall
    exact (List.pairwise_append.1 hall).2.1
  have htenure := (starts_tenure_sublist id before).cons_cons now
  exact startsOn_lt (hordered.sublist htenure) hadmitted.recent

-- ===== samples

/-- 1970-01-01T00:00:00.000Z. -/
def sampleTime : Instant := ⟨0, zero_instant⟩

def sampleId : Uuid := onesUuid

/-- A site that should be up, to be restored at most 201 times a day. -/
def sampleTerms : ContractTerms where
  name := "site is up"
  scopeKey := "site"
  desired :=
    [{ entityKey := "site", factKey := "up"
       expectedValueDigest := "b5bea41b6c623f7c09f1bf24dcae58ebab3c0cdd90ad966bc43a45b44867e12b" }]
  remediation :=
    { objective := "restore", successConditions := ["up"]
      authority := { maxRisk := .write, capabilities := ["restart"], resources := ["site"] } }
  policy :=
    { autoRemediate := true, minRemediationIntervalMs := 0, maxConsecutiveFailures := 3
      maxRemediationsPerDay := 201 }

def sampleInput : CreateInput where
  contractId := none
  name := sampleTerms.name
  scopeKey := sampleTerms.scopeKey
  desired := sampleTerms.desired
  remediation := sampleTerms.remediation
  policy :=
    { autoRemediate := some true, minRemediationIntervalMs := some 0, maxConsecutiveFailures := none
      maxRemediationsPerDay := some 201 }

/-- Whether the site is up is not known; every remediation asked about has
been verified, and the response to every submission is lost. -/
def sampleEnv : Env where
  now := sampleTime
  randomUUID := sampleId
  resolveFact := fun _ _ => .unresolved "unknown"
  inspect := fun _ => none
  refresh := fun id => some
    { id := id.val, scopeKey := sampleTerms.scopeKey, objective := sampleTerms.remediation.objective
      successConditions := sampleTerms.remediation.successConditions
      postconditions := sampleTerms.desired, state := .verified, lastBlockReason := none }
  cancel := fun _ => none
  submit := fun _ => none

theorem normalizeCreate_sample : normalizeCreate sampleInput = .ok (none, sampleTerms) := by
  apply toOption_eq_some.1
  decide +kernel

theorem validateTerms_sample : validateTerms sampleTerms = .ok () := by
  apply toOption_eq_some.1
  decide +kernel

theorem uuid_sample (label : String) : uuid sampleId.val label = .ok sampleId := by
  have hlower : sampleId.val.map Char.toLower = sampleId.val := by decide +kernel
  rw [uuid]
  simp only [hlower]
  exact dif_pos sampleId.2

theorem checkDesired_sample :
    ∃ reason, checkDesired sampleEnv sampleTerms.desired = .ok (some reason) := ⟨_, rfl⟩

-- ===== an overrun

/-- The sample contract with the given remediation under way, and every one
before it finished. -/
structure Busy (platform : Platform) (contract : DesiredStateContract) (operationId : Uuid) :
    Prop where
  terms : contract.toContractTerms = sampleTerms
  id : contract.id = sampleId
  status : contract.status = .remediating
  digest : contract.contractDigest = contractDigest platform sampleTerms
  active : contract.activeOperationId = some operationId
  failures : contract.consecutiveFailures = 0
  history : ∃ finished, contract.remediationHistory
      = finished ++ [{ operationId, startedAt := sampleTime, finishedAt := none, outcome := none }]
    ∧ ∀ entry ∈ finished, entry.startedAt = sampleTime ∧ entry.finishedAt = some sampleTime
      ∧ entry.outcome.isSome = true
  length : contract.remediationHistory.length ≤ maxHistory
  created : contract.createdAt = sampleTime
  updated : contract.updatedAt = sampleTime

theorem validateState_single {contract : DesiredStateContract}
    (h : validateContract platform contract = .ok ()) :
    validateState platform { contracts := [contract] } = .ok () := by
  rw [validateState]
  simp only [List.foldlM_cons, List.foldlM_nil, h]
  rfl

theorem validateEntry_finished {entry : RemediationEntry}
    (h : entry.startedAt = sampleTime ∧ entry.finishedAt = some sampleTime
      ∧ entry.outcome.isSome = true) : validateEntry entry = .ok () := by
  obtain ⟨hstart, hfinish, houtcome⟩ := h
  rw [validateEntry, hfinish]
  refine bind_eq_ok.2 ⟨(), rejectIf_eq_ok.2 ?_, rejectIf_eq_ok.2 ?_⟩
  · rw [hstart]
    exact lt_irrefl _
  · rw [Option.isNone_iff_eq_none]
    intro hnone
    rw [hnone] at houtcome
    cases houtcome

theorem validateContract_sample {contract : DesiredStateContract}
    (hterms : contract.toContractTerms = sampleTerms)
    (hdigest : contract.contractDigest = contractDigest platform sampleTerms)
    (hprogress : validateProgress contract = .ok ()) :
    validateState platform { contracts := [contract] } = .ok () := by
  refine validateState_single ?_
  rw [validateContract, hterms, validateTerms_sample, hdigest]
  exact bind_eq_ok.2 ⟨(), rfl, bind_eq_ok.2 ⟨(), rejectIf_eq_ok.2 (not_not.2 rfl), hprogress⟩⟩

theorem Busy.valid {contract : DesiredStateContract} {operationId : Uuid}
    (h : Busy platform contract operationId) :
    validateState platform { contracts := [contract] } = .ok () := by
  obtain ⟨finished, hhistory, hfinished⟩ := h.history
  have hunfinished : contract.remediationHistory.countP (·.unfinished) = 1 := by
    have hnone : finished.countP (·.unfinished) = 0 := by
      rw [List.countP_eq_zero]
      intro entry hentry hun
      rw [RemediationEntry.unfinished, (hfinished entry hentry).2.1] at hun
      cases hun
    rw [hhistory, List.countP_append, hnone]
    rfl
  have hentries : contract.remediationHistory.forM validateEntry = .ok () := by
    rw [forM_eq_ok, hhistory]
    intro entry hentry
    rcases List.mem_append.1 hentry with hin | hin
    · exact validateEntry_finished (hfinished entry hin)
    · rw [List.mem_singleton.1 hin]
      rfl
  refine validateContract_sample h.terms h.digest ?_
  rw [validateProgress, h.failures, h.active, hunfinished, hentries, h.created, h.updated]
  refine bind_eq_ok.2 ⟨0, rfl, bind_eq_ok.2 ⟨(), rejectIf_eq_ok.2 (Nat.not_lt.2 h.length), ?_⟩⟩
  refine bind_eq_ok.2 ⟨(), rfl, bind_eq_ok.2 ⟨(), rfl, bind_eq_ok.2 ⟨(), ?_, rfl⟩⟩⟩
  refine rejectIf_eq_ok.2 (not_not.2 ⟨{ operationId, startedAt := sampleTime
                                        finishedAt := none, outcome := none }, ?_, rfl, rfl⟩)
  rw [hhistory]
  exact List.mem_append_right _ (List.mem_singleton_self _)

/-- What the operations layer answers about a remediation of the sample. -/
def sampleOperation (operationId : Uuid) : DigitalOperation where
  id := operationId.val
  scopeKey := sampleTerms.scopeKey
  objective := sampleTerms.remediation.objective
  successConditions := sampleTerms.remediation.successConditions
  postconditions := sampleTerms.desired
  state := .verified
  lastBlockReason := none

/-- The sample contract with every remediation finished. -/
structure Idle (platform : Platform) (contract : DesiredStateContract) : Prop where
  terms : contract.toContractTerms = sampleTerms
  id : contract.id = sampleId
  status : contract.status ≠ .paused
  digest : contract.contractDigest = contractDigest platform sampleTerms
  active : contract.activeOperationId = none
  failures : contract.consecutiveFailures = 0
  finished : ∀ entry ∈ contract.remediationHistory, entry.startedAt = sampleTime
    ∧ entry.finishedAt = some sampleTime ∧ entry.outcome.isSome = true
  length : contract.remediationHistory.length ≤ maxHistory
  created : contract.createdAt = sampleTime
  updated : contract.updatedAt = sampleTime

theorem Busy.close {contract : DesiredStateContract} {operationId : Uuid}
    (h : Busy platform contract operationId) : ∃ closed,
      closeHistory contract (sampleOperation operationId) sampleTime = .ok closed
        ∧ Idle platform closed := by
  obtain ⟨finished, hhistory, hfinished⟩ := h.history
  have hentry : ∃ entry ∈ contract.remediationHistory,
      (entry.operationId.val == operationId.val && entry.unfinished) = true := by
    rw [hhistory]
    exact ⟨_, List.mem_append_right _ (List.mem_singleton_self _), by
      simp [RemediationEntry.unfinished]⟩
  refine ⟨_, bind_eq_ok.2 ⟨(), rejectIf_eq_ok.2 (not_not.2 hentry), rfl⟩, ?_⟩
  refine ⟨h.terms, h.id, ?_, h.digest, rfl, h.failures, ?_, ?_, h.created, h.updated⟩
  · rw [h.status]
    exact fun hs => nomatch hs
  · rw [hhistory, List.reverse_append]
    intro entry hin
    have hclosed : updateFirst (fun entry : RemediationEntry =>
          entry.operationId.val == (sampleOperation operationId).id && entry.unfinished)
        (fun entry => { entry with
          finishedAt := some sampleTime, outcome := some (sampleOperation operationId).outcome })
        ([{ operationId, startedAt := sampleTime, finishedAt := none
            outcome := none }].reverse ++ finished.reverse)
          = { operationId, startedAt := sampleTime, finishedAt := some sampleTime
              outcome := some (sampleOperation operationId).outcome } :: finished.reverse := by
      refine if_pos ?_
      simp [RemediationEntry.unfinished, sampleOperation]
    rw [hclosed, List.mem_reverse] at hin
    rcases List.mem_cons.1 hin with rfl | hin
    · exact ⟨rfl, rfl, rfl⟩
    · exact hfinished entry (List.mem_reverse.1 hin)
  · show (List.reverse _).length ≤ _
    rw [List.length_reverse, length_updateFirst, List.length_reverse]
    exact h.length

theorem Busy.reconcileActive {contract : DesiredStateContract} {operationId : Uuid}
    (h : Busy platform contract operationId) : ∃ idle, Idle platform idle
    ∧ Desired.reconcileActive sampleEnv contract
      = .ok (.more { contract := idle, events := [.closed sampleId .verified true] }) := by
  obtain ⟨closed, hclosed, hidle⟩ := h.close
  have hmatch : remediationMatchesContract (sampleOperation operationId) contract = true := by
    have hname : contract.scopeKey = sampleTerms.scopeKey := congrArg (·.scopeKey) h.terms
    have hremediation : contract.remediation = sampleTerms.remediation :=
      congrArg (·.remediation) h.terms
    have hdesired : contract.desired = sampleTerms.desired := congrArg (·.desired) h.terms
    rw [remediationMatchesContract, hname, hremediation, hdesired]
    simp [sampleOperation, List.isPerm_iff]
  refine ⟨{ closed with consecutiveFailures := 0 }, ⟨hidle.terms, hidle.id, hidle.status,
    hidle.digest, hidle.active, rfl, hidle.finished, hidle.length, hidle.created,
    hidle.updated⟩, ?_⟩
  have hfilter : (sampleEnv.refresh operationId).filter (fun operation =>
      operation.id == operationId.val && remediationMatchesContract operation contract)
        = some (sampleOperation operationId) := by
    show Option.filter _ (some (sampleOperation operationId)) = _
    rw [Option.filter_some, if_pos]
    rw [hmatch, Bool.and_true]
    exact beq_self_eq_true _
  rw [Desired.reconcileActive, h.active]
  dsimp only
  rw [hfilter]
  show (closeHistory contract (sampleOperation operationId) sampleTime >>= fun contract => .ok
    (Progress.more { contract := { contract with consecutiveFailures := 0 }
                     events := [.closed contract.id .verified true] })) = _
  rw [hclosed, ok_bind, hidle.id]

theorem Idle.assess {contract : DesiredStateContract} (h : Idle platform contract)
    (events : List Event) : ∃ idle, Idle platform idle
    ∧ Desired.assess sampleEnv { contract, events } = .ok (.more { contract := idle, events }) := by
  have hdesired : contract.desired = sampleTerms.desired := congrArg (·.desired) h.terms
  have hpolicy : contract.policy = sampleTerms.policy := congrArg (·.policy) h.terms
  obtain ⟨reason, hreason⟩ := checkDesired_sample
  have htoday : remediationsToday contract sampleTime ≤ maxHistory :=
    le_trans (List.countP_le_length) h.length
  refine ⟨{ contract with
    status := .drifted, lastReason := some reason, updatedAt := sampleTime }, ⟨h.terms, h.id,
      fun hs => (nomatch hs), h.digest, h.active, h.failures, h.finished, h.length, h.created, rfl⟩,
    ?_⟩
  rw [Desired.assess]
  dsimp only
  rw [hdesired, hreason, ok_bind]
  dsimp only
  rw [hpolicy, h.failures, if_neg, if_neg, if_neg, if_neg]
  · rfl
  · intro hany
    obtain ⟨entry, hentry, hless⟩ := (Option.any_eq_true _ _).1 hany
    have hstart := (h.finished entry (List.mem_of_getLast? hentry)).1
    rw [hstart] at hless
    revert hless
    decide
  · show ¬ (201 : Int) ≤ remediationsToday contract sampleTime
    have hint : (remediationsToday contract sampleTime : Int) ≤ 200 := by exact_mod_cast htoday
    omega
  · decide
  · decide

def sampleEntry (operationId : Uuid) : RemediationEntry where
  operationId := operationId
  startedAt := sampleTime
  finishedAt := none
  outcome := none

theorem Idle.reserve {contract : DesiredStateContract} (h : Idle platform contract)
    (operationId : Uuid) :
    Busy platform (Desired.reserve contract operationId sampleTime) operationId := by
  have hhistory : (Desired.reserve contract operationId sampleTime).remediationHistory
      = (contract.remediationHistory ++ [sampleEntry operationId]).drop
        ((contract.remediationHistory ++ [sampleEntry operationId]).length - maxHistory) := by
    simp only [Desired.reserve, sampleEntry]
  have hdrop : (contract.remediationHistory ++ [sampleEntry operationId]).length - maxHistory
      ≤ contract.remediationHistory.length := by
    have hmax : 0 < maxHistory := by decide
    rw [List.length_append, List.length_singleton]
    omega
  refine ⟨h.terms, h.id, rfl, h.digest, rfl, h.failures, ?_, ?_, h.created, h.updated⟩
  · rw [hhistory, List.drop_append_of_le_length hdrop]
    exact ⟨_, rfl, fun entry hin => h.finished entry (List.mem_of_mem_drop hin)⟩
  · rw [hhistory, List.length_drop]
    omega

/-- A call of the sample that reserves and submits once more. -/
def sampleAct : Act where
  call := .reconcile sampleId.val
  env := sampleEnv
  writes := 2

/-- The sample contract is busy with its `k`-th remediation since it was
created. -/
def BusyWorld (platform : Platform) (k : Nat) (w : World) : Prop :=
  ∃ contract operationId digest request before,
    w.file = { contracts := [contract] } ∧ Busy platform contract operationId
      ∧ w.log = .submitted sampleId request
        :: .reserved sampleId digest request.requestId sampleTime :: before
      ∧ (starts (tenure sampleId before)).length + 1 = k
      ∧ (∀ t ∈ starts (tenure sampleId before), t = sampleTime)
      ∧ policyOf sampleId before = some sampleTerms.policy

theorem requireContract_sample {contract : DesiredStateContract} (h : contract.id = sampleId) :
    requireContract { contracts := [contract] } sampleId.val = .ok contract := by
  rw [requireContract, uuid_sample, ok_bind]
  simp [h]

theorem persist_of_valid {state : DesiredStateFile} {events : List Event}
    (h : validateState platform state = .ok ()) :
    persist platform state events w
      = { states := [{ w with
            file := state, written := state :: w.written, log := events.reverse ++ w.log }]
          answer := .ok () } := by
  rw [persist, h]
  rfl

theorem dispatch_sample {contract old : DesiredStateContract} {events : List Event}
    (h : Idle platform contract) (hold : old.id = sampleId) :
    ∃ (mid last : World) (next : DesiredStateContract) (request : SubmitRequest),
      (dispatch platform sampleEnv { contracts := [old] } { contract, events } w).states
          = [mid, last] ∧ last.file = { contracts := [next] } ∧ Busy platform next request.requestId
        ∧ last.log = .submitted sampleId request
          :: .reserved sampleId contract.contractDigest request.requestId sampleTime
            :: (events.reverse ++ w.log) := by
  have hbusy := h.reserve (remediationRequestId platform contract)
  have hput : DesiredStateFile.put { contracts := [old] } (Desired.reserve contract
      (remediationRequestId platform contract) sampleTime)
        = { contracts := [Desired.reserve contract (remediationRequestId platform contract)
          sampleTime] } := by
    rw [DesiredStateFile.put, updateFirst, if_pos]
    rw [hold, hbusy.id]
    exact beq_self_eq_true _
  let requestId := remediationRequestId platform contract
  let next := Desired.reserve contract requestId sampleTime
  let reserved : List Event := events
    ++ [Event.reserved next.id next.contractDigest requestId sampleTime]
  let mid : World :=
    { w with
      file := { contracts := [next] }, written := { contracts := [next] } :: w.written
      log := reserved.reverse ++ w.log }
  have hpersist : persist platform ({ contracts := [old] : DesiredStateFile }.put next) reserved w
      = { states := [mid], answer := .ok () } := by
    rw [hput]
    exact persist_of_valid hbusy.valid
  refine ⟨mid, { mid with log := .submitted next.id (submitRequest next requestId) :: mid.log },
    next, submitRequest next requestId, ?_, rfl, hbusy, ?_⟩
  · have hnow : sampleEnv.now = sampleTime := rfl
    rw [dispatch, hnow]
    dsimp only
    rw [Script.bind_of_ok hpersist]
    rfl
  · have hlog : reserved.reverse = .reserved next.id next.contractDigest requestId sampleTime
        :: events.reverse := by
      rw [List.reverse_append]
      rfl
    show .submitted next.id _ :: (reserved.reverse ++ w.log) = _
    rw [hlog, hbusy.id]
    rfl

theorem reconcile_sample {contract idle : DesiredStateContract} {events : List Event}
    (hfile : w.file = { contracts := [contract] }) (hid : contract.id = sampleId)
    (hnot : contract.status ≠ .paused)
    (hvalid : validateState platform { contracts := [contract] } = .ok ())
    (hactive : reconcileActive sampleEnv contract = .ok (.more { contract := idle, events }))
    (hidle : Idle platform idle) :
    ∃ (last : World) (next : DesiredStateContract) (request : SubmitRequest),
      step platform w sampleAct = some last ∧ last.file = { contracts := [next] }
        ∧ Busy platform next request.requestId ∧ last.log = .submitted sampleId request
          :: .reserved sampleId (contractDigest platform sampleTerms) request.requestId sampleTime
            :: (events.reverse ++ w.log) := by
  obtain ⟨assessed, hidle', hassess⟩ := hidle.assess events
  let start : World := { w with clock := sampleTime.val }
  obtain ⟨mid, last, next, request, hstates, hnext, hbusy, hlog⟩ :
      ∃ (mid last : World) (next : DesiredStateContract) (request : SubmitRequest),
        (dispatch platform sampleEnv { contracts := [contract] }
            { contract := assessed, events } start).states = [mid, last]
          ∧ last.file = { contracts := [next] } ∧ Busy platform next request.requestId
          ∧ last.log = .submitted sampleId request
            :: .reserved sampleId assessed.contractDigest request.requestId sampleTime
              :: (events.reverse ++ start.log) := dispatch_sample hidle' hid
  have hread : readState platform start
      = { states := [], answer := .ok { contracts := [contract] } } := by
    show (Script.lift (validateState platform w.file) >>= fun _ => pure w.file : Op _) start = _
    rw [hfile, hvalid]
    rfl
  have hreconcile : reconcileIn platform sampleEnv sampleId.val { contracts := [contract] }
      = dispatch platform sampleEnv { contracts := [contract] } { contract := assessed, events } := by
    rw [reconcileIn, requireContract_sample hid, Script.lift_ok_bind, if_neg hnot, hactive,
      Script.lift_ok_bind]
    dsimp only
    rw [hassess, Script.lift_ok_bind]
  rw [hidle'.digest] at hlog
  refine ⟨last, next, request, ?_, hnext, hbusy, hlog⟩
  show some (Script.upTo 2 (Desired.reconcile platform sampleEnv sampleId.val) start) = _
  rw [Desired.reconcile, mutate, Script.upTo, Script.bind_of_ok hread]
  show some (Script.upTo 2 (reconcileIn platform sampleEnv sampleId.val _ >>= _) start) = _
  rw [Script.upTo_bind, hreconcile, hstates]
  · rfl
  · rw [hreconcile, hstates]
    rfl

/-- The sample reconciled once more: its remediation is closed, and the next one
reserved under the mark after it. -/
theorem BusyWorld.step {k : Nat} (h : BusyWorld platform k w) :
    ∃ w', Desired.step platform w sampleAct = some w' ∧ BusyWorld platform (k + 1) w'
      ∧ marks sampleId w'.log
        = (contractDigest platform sampleTerms, k) :: marks sampleId w.log := by
  obtain ⟨contract, operationId, digest, request, before, hfile, hbusy, hlog, hcount, htimes,
    hpolicy⟩ := h
  obtain ⟨closed, hclosed, hactive⟩ := hbusy.reconcileActive
  have hnot : contract.status ≠ .paused := by
    rw [hbusy.status]
    exact fun hs => nomatch hs
  obtain ⟨last, next, request', hlast, hnext, hbusy', hlog'⟩ :=
    reconcile_sample hfile hbusy.id hnot hbusy.valid hactive hclosed
  have hstarts : (starts (tenure sampleId (.closed sampleId .verified true :: w.log))).length = k := by
    rw [hlog, ← hcount]
    rfl
  refine ⟨last, hlast, ⟨next, request'.requestId, _, request', .closed sampleId .verified true :: w.log,
    hnext, hbusy', hlog', congrArg (· + 1) hstarts, ?_, ?_⟩, ?_⟩
  · rw [hlog]
    intro t ht
    rcases List.mem_cons.1 ht with rfl | ht
    · rfl
    · exact htimes t ht
  · rw [hlog]
    exact hpolicy
  · rw [hlog', ← hstarts]
    rfl

/-- The call that makes the sample contract. -/
def sampleCreate : Act where
  call := .create sampleInput
  env := sampleEnv
  writes := 1

theorem Idle.valid_created {contract : DesiredStateContract} (h : Idle platform contract)
    (hempty : contract.remediationHistory = []) :
    validateState platform { contracts := [contract] } = .ok () := by
  refine validateContract_sample h.terms h.digest ?_
  rw [validateProgress, h.failures, h.active, hempty, h.created, h.updated]
  rfl

theorem create_sample (platform : Platform) : ∃ w', step platform World.start sampleCreate = some w'
    ∧ ∃ contract, w'.file = { contracts := [contract] } ∧ Idle platform contract
      ∧ contract.remediationHistory = [] ∧ w'.log = [.created sampleId sampleTerms.policy] := by
  obtain ⟨reason, hreason⟩ := checkDesired_sample
  let start : World := { World.start with clock := sampleTime.val }
  let contract := { newContract platform sampleId sampleTerms sampleTime with
    lastReason := some reason }
  have hidle : Idle platform contract :=
    ⟨rfl, rfl, fun hs => (nomatch hs), rfl, rfl, rfl, fun _ h => (nomatch h), Nat.zero_le _, rfl, rfl⟩
  have hread : readState platform start = { states := [], answer := .ok { contracts := [] } } := rfl
  have hcreate : create platform sampleEnv sampleInput start
      = { states := [{ start with
            file := { contracts := [contract] }, written := { contracts := [contract] } :: []
            log := [.created sampleId sampleTerms.policy] }]
          answer := .ok contract } := by
    have hcheck : checkDesired sampleEnv (newContract platform
        ((none : Option Uuid).getD sampleEnv.randomUUID) sampleTerms sampleEnv.now).desired
          = .ok (some reason) := hreason
    have hreclaim : reclaim [] = .ok [] := rfl
    rw [create, normalizeCreate_sample, Script.lift_ok_bind]
    dsimp only
    rw [Script.bind_of_ok hread]
    dsimp only [List.find?]
    rw [hreclaim, Script.lift_ok_bind, hcheck, Script.lift_ok_bind]
    exact Script.bind_of_ok (persist_of_valid (hidle.valid_created rfl))
  let last : World :=
    { start with
      file := { contracts := [contract] }, written := [{ contracts := [contract] }]
      log := [.created sampleId sampleTerms.policy] }
  refine ⟨last, ?_, contract, rfl, hidle, rfl, rfl⟩
  show some (Script.upTo 1 (create platform sampleEnv sampleInput) start) = _
  rw [Script.upTo, hcreate]
  rfl

/-- The sample contract made and remediated `n + 1` times. -/
def sampleActs (n : Nat) : List Act := sampleCreate :: List.replicate (n + 1) sampleAct

theorem forward_sample {act : Act} (henv : act.env = sampleEnv) (h : w.clock ≤ sampleTime.val) :
    Forward w act := by
  rw [Forward, henv]
  exact h

theorem exists_first_run (platform : Platform) :
    ∃ w, Run (Where (stepsOf (step platform)) Forward) World.start (sampleActs 0) w
    ∧ BusyWorld platform 1 w ∧ w.clock = sampleTime.val
    ∧ marks sampleId w.log = [(contractDigest platform sampleTerms, 0)] := by
  obtain ⟨w, hw, contract, hfile, hidle, hempty, hlog⟩ := create_sample platform
  have hsound := step_sound sound_start hw
  have hactive : reconcileActive sampleEnv contract = .ok (.more { contract, events := [] }) := by
    rw [reconcileActive, hidle.active]
  obtain ⟨last, next, request, hlast, hnext, hbusy, hlast_log⟩ :=
    reconcile_sample hfile hidle.id hidle.status (hidle.valid_created hempty) hactive hidle
  rw [hlog] at hlast_log
  have hfirst : Forward World.start sampleCreate := forward_sample rfl (by decide)
  have hsecond : Forward w sampleAct := forward_sample rfl hsound.clock.le
  refine ⟨last, (Run.nil.snoc ⟨hw, hfirst⟩).snoc ⟨hlast, hsecond⟩, ?_,
    (step_sound hsound.toSound hlast).clock, ?_⟩
  · exact ⟨next, request.requestId, _, request, _, hnext, hbusy, hlast_log, rfl,
      fun _ h => (by cases h), rfl⟩
  · rw [hlast_log]
    rfl

theorem exists_busy_run (platform : Platform) (n : Nat) :
    ∃ w, Run (Where (stepsOf (step platform)) Forward) World.start (sampleActs n) w
    ∧ BusyWorld platform (n + 1) w ∧ w.clock = sampleTime.val := by
  induction n with
  | zero =>
    obtain ⟨w, hrun, hbusy, hclock, -⟩ := exists_first_run platform
    exact ⟨w, hrun, hbusy, hclock⟩
  | succ n ih =>
    obtain ⟨w, hrun, hbusy, hclock⟩ := ih
    obtain ⟨w', hstep, hbusy', -⟩ := hbusy.step
    have hsound := (timely_run hrun).1
    refine ⟨w', ?_, hbusy', (step_sound hsound hstep).clock⟩
    have hacts : sampleActs (n + 1) = sampleActs n ++ [sampleAct] := by
      rw [sampleActs, sampleActs, List.replicate_succ', List.cons_append]
    rw [hacts]
    exact hrun.snoc ⟨hstep, forward_sample rfl hclock.le⟩

def shaPlatform : Platform where
  sha256 := sha256Utf8

/-- The 202nd reservation takes the operation id of the 201st, whatever the
hash. -/
theorem overrun_reuses_id : ¬ ∃ platform : Platform, ∀ w,
    Run (stepsOf (step platform)) World.start (sampleActs 201) w →
      (reservedIds sampleId w.log).Nodup := by
  intro h
  obtain ⟨platform, h⟩ := h
  obtain ⟨w, hrun, ⟨_, _, digest, request, before, -, -, hlog, hcount, -⟩, -⟩ :=
    exists_busy_run platform 201
  have hrun' := hrun.mono fun hstep => hstep.1
  have hlow := ((sound_run hrun').inv.lawful.marks_of_nodup (h w hrun')).2
  have hmark : (digest, (starts (tenure sampleId before)).length) ∈ marks sampleId w.log := by
    rw [hlog]
    show _ ∈ marks sampleId (.reserved sampleId digest request.requestId sampleTime :: before)
    rw [marks, if_pos rfl]
    exact List.mem_cons_self ..
  have hle : (starts (tenure sampleId before)).length ≤ maxHistory := hlow _ hmark
  rw [show (starts (tenure sampleId before)).length = 201 by omega] at hle
  exact absurd hle (by decide)

/-- The 202nd remediation of a day is submitted under a limit of 201. -/
theorem overrun_passes_limit : ¬ ∃ platform : Platform, ∀ w,
    Run (Where (stepsOf (step platform)) Forward) World.start (sampleActs 201) w →
      ∀ request digest now before policy, w.log = .submitted sampleId request
          :: .reserved sampleId digest request.requestId now :: before →
        policyOf sampleId before = some policy →
        (startsOn now (starts (tenure sampleId before)) : Int) < policy.maxRemediationsPerDay := by
  intro h
  obtain ⟨platform, h⟩ := h
  obtain ⟨w, hrun, ⟨_, _, digest, request, before, -, -, hlog, hcount, htimes, hpolicy⟩, -⟩ :=
    exists_busy_run platform 201
  have hless := h w hrun request digest sampleTime before _ hlog hpolicy
  have hall : startsOn sampleTime (starts (tenure sampleId before)) = 201 := by
    rw [startsOn, List.countP_eq_length.2]
    · omega
    · intro t ht
      rw [htimes t ht]
      exact beq_self_eq_true _
  rw [hall] at hless
  exact absurd hless (by decide)

/-- What the first reservation of the sample is named by, where its terms have
the digest of zeros. -/
def firstText : String :=
  markText sampleId (⟨String.ofList (List.replicate 64 '0'), zeros_hex64⟩, 0)

/-- A hash that tells the first reservation of the sample from any other text. -/
def tellingPlatform : Platform where
  sha256 text := if text = firstText then ⟨String.ofList (List.replicate 64 'a'), as_hex64⟩
    else ⟨String.ofList (List.replicate 64 '0'), zeros_hex64⟩

theorem telling_first {text : String} (h : text = firstText) : tellingPlatform.sha256 text
    = ⟨String.ofList (List.replicate 64 'a'), as_hex64⟩ := by
  rw [tellingPlatform]
  exact if_pos h

theorem telling_other {text : String} (h : text ≠ firstText) : tellingPlatform.sha256 text
    = ⟨String.ofList (List.replicate 64 '0'), zeros_hex64⟩ := by
  rw [tellingPlatform]
  exact if_neg h

theorem telling_digest : contractDigest tellingPlatform sampleTerms
    = ⟨String.ofList (List.replicate 64 '0'), zeros_hex64⟩ :=
  telling_other (by decide +kernel)

theorem telling_ids {text : String} (h : tellingPlatform.operationId text
    = tellingPlatform.operationId firstText) : text = firstText := by
  by_contra hother
  rw [Platform.operationId, Platform.operationId, telling_first rfl, telling_other hother] at h
  revert h
  decide +kernel

/-- Two remediations of the sample, under two ids. -/
theorem remediation_ids_distinct_sample : ∃ w,
    Run (stepsOf (step tellingPlatform)) World.start (sampleActs 1) w
    ∧ (reservedIds sampleId w.log).length = 2 ∧ (reservedIds sampleId w.log).Nodup
    ∧ (submittedIds sampleId w.log).Sublist (reservedIds sampleId w.log) := by
  obtain ⟨w, hrun, hbusy, hclock, hmarks⟩ := exists_first_run tellingPlatform
  obtain ⟨w', hstep, -, hmarks'⟩ := hbusy.step
  have hrun' : Run (stepsOf (step tellingPlatform)) World.start (sampleActs 1) w' :=
    (hrun.mono fun hstep => hstep.1).snoc hstep
  rw [hmarks, telling_digest] at hmarks'
  have hfree : Json.CollisionFree tellingPlatform.operationId
      ((marks sampleId w'.log).map (markText sampleId)) := by
    rw [hmarks']
    intro a ha b hb hsame
    simp only [List.map_cons, List.map_nil, List.mem_cons, List.not_mem_nil, or_false] at ha hb
    rcases ha with rfl | rfl
    · rcases hb with rfl | rfl
      · rfl
      · exact telling_ids hsame
    · rcases hb with rfl | rfl
      · exact (telling_ids hsame.symm).symm
      · rfl
  have hdistinct := remediation_ids_distinct tellingPlatform _ w' hrun' sampleId hfree
  refine ⟨w', hrun', ?_, hdistinct.2.2 ?_, hdistinct.1⟩
  · rw [(sound_run hrun').inv.lawful.ids, hmarks']
    rfl
  · rw [hmarks']
    decide

/-- The second remediation of the sample. -/
theorem remediation_limits_sample : ∃ w,
    Run (Where (stepsOf (step shaPlatform)) Forward) World.start (sampleActs 1) w
    ∧ BusyWorld shaPlatform 2 w
    ∧ (∀ state ∈ w.written, validateState shaPlatform state = .ok ())
    ∧ ∀ id request rest, .submitted id request :: rest <:+ w.log → ∃ digest now before policy,
        rest = .reserved id digest request.requestId now :: before
          ∧ policyOf id before = some policy ∧ Limits policy now (tenure id before)
          ∧ (policy.maxRemediationsPerDay ≤ maxHistory
              ∨ startsOn now (starts (tenure id before)) ≤ maxHistory →
            (startsOn now (starts (tenure id before)) : Int) < policy.maxRemediationsPerDay) := by
  obtain ⟨w, hrun, hbusy, -⟩ := exists_busy_run shaPlatform 1
  have hlimits := remediation_limits shaPlatform _ w hrun
  exact ⟨w, hrun, hbusy, hlimits.1, hlimits.2⟩

end OperatorRuntime.Desired
