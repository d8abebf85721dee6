/-
Runs of the runtime ownership store. Every change of a record is one of
`Moved`, and no change turns an inactive record active or gives it a
port, so records in an active phase share no port, whatever is observed.

Two slips bound the rest. An aborted launch is TERMINATED without a
process identity, which the validator refuses, so the launch stays and
keeps its ports. And a live process of which an observation is not
certain is taken for a dead one: its record is EXITED and its ports are
free while it runs. In runs without the two (`Meets`) the store does what
its phases say.
-/
import OperatorRuntime.Developer.Proofs.Outcomes
import OperatorRuntime.Lib.Runs

namespace OperatorRuntime.DeveloperRuntime

open Lib

-- ===== identities

section
variable {dateParse : DateParse} {a b c : ProcessInstanceIdentity}

theorem sameProcessInstance_iff : sameProcessInstance dateParse a b = true
    ↔ a.pid = b.pid ∧ (a.started = b.started
      ∨ ∃ ms, windowsStartedMillisecond dateParse a.started = some ms
        ∧ windowsStartedMillisecond dateParse b.started = some ms) := by
  rw [sameProcessInstance]
  by_cases hpid : a.pid = b.pid
  · rw [if_neg (not_not.2 hpid)]
    by_cases hstarted : a.started = b.started
    · rw [if_pos hstarted]
      exact ⟨fun _ => ⟨hpid, .inl hstarted⟩, fun _ => rfl⟩
    · rw [if_neg hstarted]
      constructor
      · intro h
        split at h
        · next leftMs rightMs ha hb =>
          exact ⟨hpid, .inr ⟨leftMs, ha, (beq_iff_eq.1 h) ▸ hb⟩⟩
        · cases h
      · intro ⟨_, hor⟩
        rcases hor with heq | ⟨ms, ha, hb⟩
        · exact absurd heq hstarted
        · rw [ha, hb]
          exact beq_self_eq_true ms
  · rw [if_pos hpid]
    exact ⟨fun h => (nomatch h), fun h => absurd h.1 hpid⟩

theorem sameProcessInstance_symm (h : sameProcessInstance dateParse a b = true) :
    sameProcessInstance dateParse b a = true := by
  obtain ⟨hpid, hstarted⟩ := sameProcessInstance_iff.1 h
  refine sameProcessInstance_iff.2 ⟨hpid.symm, ?_⟩
  rcases hstarted with heq | ⟨ms, ha, hb⟩
  · exact .inl heq.symm
  · exact .inr ⟨ms, hb, ha⟩

theorem sameProcessInstance_trans (h : sameProcessInstance dateParse a b = true)
    (h' : sameProcessInstance dateParse b c = true) : sameProcessInstance dateParse a c = true := by
  obtain ⟨hpid, hstarted⟩ := sameProcessInstance_iff.1 h
  obtain ⟨hpid', hstarted'⟩ := sameProcessInstance_iff.1 h'
  refine sameProcessInstance_iff.2 ⟨hpid.trans hpid', ?_⟩
  rcases hstarted with heq | ⟨ms, ha, hb⟩
  · rw [heq]
    exact hstarted'
  · rcases hstarted' with heq | ⟨ms', hb', hc⟩
    · exact .inr ⟨ms, ha, heq ▸ hb⟩
    · exact .inr ⟨ms, ha, hc.trans (hb'.symm.trans hb)⟩

theorem sameLive_of_same (h : sameProcessInstance dateParse a b = true)
    {observation : ProcessInstanceObservation} (hlive : sameLive dateParse a observation = true) :
    sameLive dateParse b observation = true := by
  rw [sameLive] at hlive ⊢
  obtain ⟨live, hin, hsame⟩ := (Option.any_eq_true _ _).1 hlive
  exact (Option.any_eq_true _ _).2
    ⟨live, hin, sameProcessInstance_trans (sameProcessInstance_symm h) hsame⟩

end

-- ===== moves

/-- The operation inspects the process of the record. -/
def Op.Inspects (record : DeveloperRuntimeOwnershipRecord) : Op → Prop
  | .beginLaunch _ => True
  | .recover => True
  | .listForDeveloperSession _ => True
  | .listAll => True
  | .get _ => True
  | .claimTermination text => Names text record
  | .markTerminated text _ => Names text record
  | .commitLaunch _ _ => False
  | .abortLaunch _ => False
  | .markExited _ _ => False

/-- What an operation may do to a record. -/
inductive Moved (dateParse : DateParse) (env : Environment) (op : Op)
    (record : DeveloperRuntimeOwnershipRecord) : DeveloperRuntimeOwnershipRecord → Prop
  | stays : Moved dateParse env op record record
  | exits {process : ProcessInstanceIdentity} (hlive : record.live)
      (hprocess : process ∈ record.processInstance) (hinspects : op.Inspects record)
      (hdead : sameLive dateParse process (env.observe process.pid) = false) :
      Moved dateParse env op record (inPhase env .exited record)
  | promotes (hphase : record.phase = .launchIntent) :
      Moved dateParse env op record (inPhase env .ambiguous record)
  | commits {identity : ProcessInstanceIdentity} (hphase : record.phase = .launchIntent)
      (hidentity : validProcessInstance identity = true) :
      Moved dateParse env op record (committedOf env identity record)
  | aborts {text : String} (hop : op = .abortLaunch text) (hname : Names text record)
      (hphase : record.phase = .launchIntent) :
      Moved dateParse env op record (inPhase env .terminated record)
  | claims (hlive : record.live) :
      Moved dateParse env op record (inPhase env .terminationPending record)
  | reported {text : String} {identity process : ProcessInstanceIdentity}
      (hop : op = .markExited text identity) (hlive : record.live)
      (hprocess : process ∈ record.processInstance)
      (hsame : sameProcessInstance dateParse process identity = true) :
      Moved dateParse env op record (inPhase env .exited record)
  | confirmed {process : ProcessInstanceIdentity} (hcommitted : record.phase.committed = true)
      (hprocess : process ∈ record.processInstance) (hinspects : op.Inspects record)
      (hdead : sameLive dateParse process (env.observe process.pid) = false) :
      Moved dateParse env op record (inPhase env .terminated record)

section
variable {dateParse : DateParse} {env : Environment} {stored : OwnershipState} {op : Op}
  {record record' : DeveloperRuntimeOwnershipRecord}

theorem moved_reconcile (hinspects : op.Inspects record) :
    Moved dateParse env op record (reconcileRecord dateParse env record) := by
  rw [reconcileRecord]
  split
  · next h =>
    obtain ⟨hlive, process, hprocess, hdead⟩ := h
    exact Moved.exits hlive hprocess hinspects hdead
  · exact Moved.stays

theorem moved_recover : Moved dateParse env .recover record
      (reconcileRecord dateParse env (promoteRecord dateParse env record)) := by
  rw [promoteRecord]
  split
  · next h =>
    rw [reconcileRecord, if_neg]
    · exact Moved.promotes h.1
    · rintro ⟨hlive, _⟩
      rcases hlive with hphase | hphase
      · cases hphase
      · cases hphase
  · exact moved_reconcile trivial

theorem Op.Allowed.moved (h : op.Allowed dateParse env stored) (hvalid : Valid stored)
    (hin : record ∈ stored) : Moved dateParse env op record (op.next dateParse env record) := by
  cases op with
  | beginLaunch input => exact moved_reconcile trivial
  | listForDeveloperSession text => exact moved_reconcile trivial
  | listAll => exact moved_reconcile trivial
  | get text => exact moved_reconcile trivial
  | recover => exact moved_recover
  | commitLaunch text identity =>
    rw [Op.next]
    split
    · next hcase => exact Moved.commits hcase.2 h.1
    · exact Moved.stays
  | abortLaunch text =>
    rw [Op.next]
    split
    · next hcase => exact Moved.aborts rfl hcase.1 hcase.2
    · exact Moved.stays
  | claimTermination text =>
    rw [Op.next]
    split
    · next hcase =>
      split
      · exact Moved.claims hcase.2
      · next hdead =>
        obtain ⟨process, hprocess⟩ := (hvalid.sound record hin).identity_of_committed
          (committed_of_live hcase.2)
        refine Moved.exits hcase.2 hprocess hcase.1 ?_
        exact Bool.eq_false_of_not_eq_true fun hlive => hdead ⟨process, hprocess, hlive⟩
    · exact Moved.stays
  | markExited text identity =>
    rw [Op.next]
    split
    · next hcase =>
      obtain ⟨-, other, hother, hname, process, hprocess, hsame⟩ := h
      rw [hcase.1.unique hvalid.ids hin hname hother] at hprocess
      exact Moved.reported rfl hcase.2 hprocess hsame
    · exact Moved.stays
  | markTerminated text identity =>
    rw [Op.next]
    split
    · next hcase =>
      obtain ⟨-, ⟨other, hother, hname, process, hprocess, hsame⟩, hdead⟩ := h
      rw [hcase.1.unique hvalid.ids hin hname hother] at hprocess
      refine Moved.confirmed hcase.2 hprocess hcase.1 ?_
      rw [(sameProcessInstance_iff.1 hsame).1]
      refine Bool.eq_false_of_not_eq_true fun hlive => ?_
      rw [sameLive_of_same hsame hlive] at hdead
      cases hdead
    · exact Moved.stays

-- ===== preserved

/-- No move touches what names a record, what it holds and when it was made. -/
theorem Moved.fixed (h : Moved dateParse env op record record') :
    record'.processSessionId = record.processSessionId ∧ record'.ports = record.ports
    ∧ record'.createdAt = record.createdAt := by
  cases h with
  | stays => exact ⟨rfl, rfl, rfl⟩
  | exits => exact ⟨rfl, rfl, rfl⟩
  | promotes => exact ⟨rfl, rfl, rfl⟩
  | commits => exact ⟨rfl, rfl, rfl⟩
  | aborts => exact ⟨rfl, rfl, rfl⟩
  | claims => exact ⟨rfl, rfl, rfl⟩
  | reported => exact ⟨rfl, rfl, rfl⟩
  | confirmed => exact ⟨rfl, rfl, rfl⟩

theorem active_of_live (h : record.live) : record.phase.active = true := by
  rcases h with hphase | hphase
  · rw [hphase]
    rfl
  · rw [hphase]
    rfl

theorem Moved.active (h : Moved dateParse env op record record')
    (hactive : record'.phase.active = true) : record.phase.active = true := by
  cases h with
  | stays => exact hactive
  | exits => cases hactive
  | promotes hphase =>
    rw [hphase]
    rfl
  | commits hphase _ =>
    rw [hphase]
    rfl
  | aborts => cases hactive
  | claims hlive => exact active_of_live hlive
  | reported => cases hactive
  | confirmed => cases hactive

theorem Sound.inPhase (h : Sound record) {phase : DeveloperRuntimeOwnershipPhase}
    (hphase : phase.committed = record.phase.committed)
    (htime : record.createdAt.val ≤ env.now.val) : Sound (inPhase env phase record) where
  developerSessionId := h.developerSessionId
  launcher := h.launcher
  identity := h.identity
  committed := hphase.trans h.committed
  ports := h.ports
  times := htime

theorem Moved.sound (h : Moved dateParse env op record record') (hsound : Sound record)
    (htime : record.createdAt.val ≤ env.now.val)
    (haborts : ∀ text, op = .abortLaunch text → Names text record → record.phase ≠ .launchIntent) :
    Sound record' := by
  cases h with
  | stays => exact hsound
  | exits hlive _ _ _ => exact hsound.inPhase (committed_of_live hlive).symm htime
  | promotes hphase =>
    refine hsound.inPhase ?_ htime
    rw [hphase]
    rfl
  | @commits identity hphase hidentity =>
    refine ⟨hsound.developerSessionId, hsound.launcher, ?_, rfl, hsound.ports, htime⟩
    intro identity' hidentity'
    rw [← Option.some.inj hidentity']
    exact hidentity
  | aborts hop hname hphase => exact absurd hphase (haborts _ hop hname)
  | claims hlive => exact hsound.inPhase (committed_of_live hlive).symm htime
  | reported _ hlive _ _ => exact hsound.inPhase (committed_of_live hlive).symm htime
  | confirmed hcommitted _ _ _ => exact hsound.inPhase hcommitted.symm htime

/-- What holds of the record an allowed operation adds. -/
structure Fresh (dateParse : DateParse) (env : Environment) (stored : OwnershipState) (op : Op)
    (record : DeveloperRuntimeOwnershipRecord) : Prop where
  sound : Sound record
  ids : ∀ other ∈ stored, other.processSessionId ≠ record.processSessionId
  room : stored.length < maxRecords
  apart : ∀ other ∈ stored, NoSharedPort (op.next dateParse env other) record
  createdAt : record.createdAt = env.now

theorem Op.Allowed.created (h : op.Allowed dateParse env stored)
    (howner : validProcessInstance env.ownerProcess = true) :
    op.created env = [] ∨ ∃ record, op.created env = [record]
    ∧ Fresh dateParse env stored op record := by
  cases op with
  | beginLaunch input =>
    obtain ⟨⟨id, hid, hids⟩, hsession, ⟨ports, hports, hfree⟩, hroom⟩ := h
    rw [Op.created, hid, hports]
    refine .inr ⟨_, rfl, ⟨hsession, howner, ?_, rfl, normalizePorts_again hports, le_refl _⟩,
      hids, hroom, ?_, rfl⟩
    · intro identity hidentity
      cases hidentity
    · intro other hother hactive _ port hport
      rw [Op.next, reconcileRecord_ports] at hport
      exact hfree other hother hactive port hport
  | _ => exact .inl rfl

/-- The records of the file pass their validation, share no port while
active, and were created by now. -/
structure Inv (m : Machine) : Prop where
  valid : Valid m.stored
  apart : PortsApart m.stored
  created : ∀ record ∈ m.stored, record.createdAt.val ≤ m.now.val

theorem Inv.moved {m : Machine} (h : Inv m) (hallowed : op.Allowed dateParse env m.stored) :
    (m.stored.map fun record => op.next dateParse env record).map (·.processSessionId)
      = m.stored.map (·.processSessionId)
    ∧ PortsApart (m.stored.map fun record => op.next dateParse env record) := by
  constructor
  · rw [List.map_map]
    exact List.map_congr_left fun record hin => (hallowed.moved h.valid hin).fixed.1
  · rw [PortsApart, List.pairwise_map]
    refine h.apart.imp_of_mem ?_
    intro a b ha hb hab hactive hactive'
    have hmoved := hallowed.moved h.valid ha
    have hmoved' := hallowed.moved h.valid hb
    rw [hmoved.fixed.2.1, hmoved'.fixed.2.1]
    exact hab (hmoved.active hactive) (hmoved'.active hactive')

theorem Inv.after {m : Machine} (h : Inv m) (hallowed : op.Allowed dateParse env m.stored)
    (howner : validProcessInstance env.ownerProcess = true) (hnow : m.now.val ≤ env.now.val)
    (haborts : ∀ text, op = .abortLaunch text → ∀ record ∈ m.stored, Names text record →
      record.phase ≠ .launchIntent) :
    Valid (op.after dateParse env m.stored) ∧ PortsApart (op.after dateParse env m.stored)
    ∧ ∀ record ∈ op.after dateParse env m.stored, record.createdAt.val ≤ env.now.val := by
  obtain ⟨hids, hapart⟩ := h.moved hallowed
  have hsound : ∀ record ∈ m.stored.map fun record => op.next dateParse env record,
      Sound record ∧ record.createdAt.val ≤ env.now.val := by
    intro record hin
    obtain ⟨old, hold, rfl⟩ := List.mem_map.1 hin
    have hmoved := hallowed.moved h.valid hold
    have htime := (h.created old hold).trans hnow
    refine ⟨hmoved.sound (h.valid.sound old hold) htime ?_, ?_⟩
    · intro text hop hname
      exact haborts text hop old hold hname
    · rw [hmoved.fixed.2.2]
      exact htime
  rw [Op.after]
  rcases hallowed.created howner with hnone | ⟨created, hcreated, hfresh⟩
  · rw [hnone, List.append_nil]
    refine ⟨⟨?_, fun record hin => (hsound record hin).1, hids ▸ h.valid.ids⟩, hapart,
      fun record hin => (hsound record hin).2⟩
    rw [List.length_map]
    exact h.valid.size
  · rw [hcreated]
    refine ⟨⟨?_, ?_, ?_⟩, ?_, ?_⟩
    · rw [List.length_append, List.length_map]
      exact hfresh.room
    · intro record hin
      rcases List.mem_append.1 hin with hold | hnew
      · exact (hsound record hold).1
      · rw [List.mem_singleton.1 hnew]
        exact hfresh.sound
    · rw [List.map_append, hids, List.nodup_append]
      refine ⟨h.valid.ids, List.nodup_singleton _, ?_⟩
      intro id hid id' hid'
      obtain ⟨other, hother, rfl⟩ := List.mem_map.1 hid
      rw [List.mem_singleton.1 hid']
      exact hfresh.ids other hother
    · rw [PortsApart, List.pairwise_append]
      refine ⟨hapart, List.pairwise_singleton _ _, ?_⟩
      intro record hin record' hin'
      obtain ⟨old, hold, rfl⟩ := List.mem_map.1 hin
      rw [List.mem_singleton.1 hin']
      exact hfresh.apart old hold
    · intro record hin
      rcases List.mem_append.1 hin with hold | hnew
      · exact (hsound record hold).2
      · rw [List.mem_singleton.1 hnew, hfresh.createdAt]

end

-- ===== steps

/-- The process is one of those that ended. -/
def Ended (dateParse : DateParse) (ended : List ProcessInstanceIdentity)
    (process : ProcessInstanceIdentity) : Prop :=
  ∃ gone ∈ ended, sameProcessInstance dateParse process gone = true

/-- What the surroundings keep to: a process that ended stays so, the
store runs in a process, no recorded process is reported as ended before
it has, and `markExited` is told of an end. -/
structure Honest (dateParse : DateParse) (m : Machine) (turn : Turn) : Prop where
  ended : m.ended ⊆ turn.ended
  owner : validProcessInstance turn.env.ownerProcess = true
  truthful : ∀ record ∈ m.stored, ∀ process ∈ record.processInstance,
    ¬ Ended dateParse turn.ended process →
      ¬ ReportsEnded dateParse (fun pid => some (turn.env.observe pid)) process
  exited : ∀ text identity, turn.op = .markExited text identity →
    Ended dateParse turn.ended identity

/-- No launch intent is aborted; a live process an operation inspects is
identified; and the records of an allowed operation fit the file. -/
structure Meets (dateParse : DateParse) (m : Machine) (turn : Turn) : Prop where
  aborts : ∀ text, turn.op = .abortLaunch text → ∀ record ∈ m.stored, Names text record →
    record.phase ≠ .launchIntent
  inspected : ∀ record ∈ m.stored, record.live → turn.op.Inspects record →
    ∀ process ∈ record.processInstance, ¬ Ended dateParse turn.ended process →
      ∃ identity, turn.env.observe process.pid = .live (some identity)
  fits : turn.op.Allowed dateParse turn.env m.stored →
    fileBytes (turn.op.after dateParse turn.env m.stored) ≤ maxBytes

section
variable {dateParse : DateParse} {m m' : Machine} {turn : Turn}

theorem fileBytes_perm {records records' : OwnershipState} (h : records.Perm records') :
    fileBytes records = fileBytes records' := by
  have hbytes : Json.indentedBytes 1 (.arr (records.map recordJson))
      = Json.indentedBytes 1 (.arr (records'.map recordJson)) :=
    Json.indentedBytes_arr_perm (h.map recordJson)
  rw [fileBytes, fileBytes, Json.indentedBytes_obj (List.cons_ne_nil _ _),
    Json.indentedBytes_obj (List.cons_ne_nil _ _)]
  simp only [Json.fieldsBytes, Nat.zero_add, hbytes]

theorem accept_eq_ok {records : OwnershipState} (hvalid : Valid records)
    (hfits : fileBytes records ≤ maxBytes) : accept records = .ok () := by
  simp only [accept, bind_eq_ok, corruptIf, rejectIf_eq_ok, not_lt]
  exact ⟨records, hvalid.validateState, hfits⟩

theorem Moved.live {record record' : DeveloperRuntimeOwnershipRecord} (hin : record ∈ m.stored)
    (hhonest : Honest dateParse m turn) (hmeets : Meets dateParse m turn)
    (h : Moved dateParse turn.env turn.op record record') (hlive : record.live) :
    record'.processInstance = record.processInstance
    ∧ (record'.live ∨ ∃ process ∈ record.processInstance,
      Ended dateParse turn.ended process) := by
  have hlaunch : record.phase ≠ .launchIntent := by
    intro hphase
    rcases hlive with hrunning | hpending
    · rw [hphase] at hrunning
      cases hrunning
    · rw [hphase] at hpending
      cases hpending
  have hgone : ∀ process ∈ record.processInstance, turn.op.Inspects record →
      sameLive dateParse process (turn.env.observe process.pid) = false →
      Ended dateParse turn.ended process := by
    intro process hprocess hinspects hdead
    by_contra hruns
    obtain ⟨identity, hobserve⟩ :=
      hmeets.inspected record hin hlive hinspects process hprocess hruns
    apply hhonest.truthful record hin process hprocess hruns
    rw [hobserve] at hdead
    exact .inr ⟨identity, congrArg some hobserve, hdead⟩
  cases h with
  | stays => exact ⟨rfl, .inl hlive⟩
  | exits _ hprocess hinspects hdead =>
    exact ⟨rfl, .inr ⟨_, hprocess, hgone _ hprocess hinspects hdead⟩⟩
  | promotes hphase => exact absurd hphase hlaunch
  | commits hphase _ => exact absurd hphase hlaunch
  | aborts _ _ hphase => exact absurd hphase hlaunch
  | claims _ => exact ⟨rfl, .inl (.inr rfl)⟩
  | reported hop _ hprocess hsame =>
    obtain ⟨gone, hin', hsame'⟩ := hhonest.exited _ _ hop
    exact ⟨rfl, .inr ⟨_, hprocess, gone, hin', sameProcessInstance_trans hsame hsame'⟩⟩
  | confirmed _ hprocess hinspects hdead =>
    exact ⟨rfl, .inr ⟨_, hprocess, hgone _ hprocess hinspects hdead⟩⟩

theorem step_eq_some (h : step dateParse m turn = some m') : m.now.val ≤ turn.env.now.val
    ∧ m' = { stored := (turn.run dateParse m.stored).1, now := turn.env.now
             ended := turn.ended } := by
  rw [step] at h
  split at h
  · next hnow => exact ⟨hnow, (Option.some.inj h).symm⟩
  · cases h

theorem Inv.run_cases (hinv : Inv m) (dateParse : DateParse) (turn : Turn) :
    (turn.run dateParse m.stored).1 = m.stored ∨ turn.op.Allowed dateParse turn.env m.stored
    ∧ (turn.run dateParse m.stored).1.Perm (turn.op.after dateParse turn.env m.stored) := by
  have hrun : turn.run dateParse m.stored
      = ((turn.run dateParse m.stored).1, (turn.run dateParse m.stored).2) := rfl
  rcases replaceState_cases hrun with ⟨hsame, -⟩ | ⟨records, _, houtcome, -, heq, -⟩
  · exact .inl hsame
  · rw [heq]
    exact .inr ⟨(Op.outcome_iff hinv.valid hinv.apart turn.op).1 ⟨records, houtcome⟩,
      Op.outcome_perm hinv.valid hinv.apart houtcome⟩

/-- One call: a record is moved, or a fresh one added. -/
theorem Inv.step (h : Inv m) (hhonest : Honest dateParse m turn) (hmeets : Meets dateParse m turn)
    (hstep : step dateParse m turn = some m') : Inv m' := by
  obtain ⟨hnow, rfl⟩ := step_eq_some hstep
  rcases h.run_cases dateParse turn with hsame | ⟨hallowed, hperm⟩
  · rw [hsame]
    exact ⟨h.valid, h.apart, fun record hin => (h.created record hin).trans hnow⟩
  · obtain ⟨hvalid, hapart, hcreated⟩ := h.after hallowed hhonest.owner hnow hmeets.aborts
    exact ⟨hvalid.perm hperm, hapart.perm hperm.symm fun hab => Std.Symm.symm _ _ hab,
      fun record hin => hcreated record (hperm.mem_iff.1 hin)⟩

theorem exists_moved (hinv : Inv m) (hstep : DeveloperRuntime.step dateParse m turn = some m')
    {record : DeveloperRuntimeOwnershipRecord} (hin : record ∈ m.stored) :
    ∃ record' ∈ m'.stored, Moved dateParse turn.env turn.op record record' := by
  obtain ⟨-, rfl⟩ := step_eq_some hstep
  rcases hinv.run_cases dateParse turn with hsame | ⟨hallowed, hperm⟩
  · exact ⟨record, hsame.symm ▸ hin, Moved.stays⟩
  · refine ⟨_, hperm.mem_iff.2 ?_, hallowed.moved hinv.valid hin⟩
    exact List.mem_append_left _ (List.mem_map_of_mem hin)

theorem allowed_succeeds (hinv : Inv m) (hhonest : Honest dateParse m turn)
    (hmeets : Meets dateParse m turn) (hnow : m.now.val ≤ turn.env.now.val)
    (hallowed : turn.op.Allowed dateParse turn.env m.stored) (hdisk : turn.env.disk = .durable) :
    (turn.run dateParse m.stored).2 = .ok () := by
  obtain ⟨records, houtcome⟩ := (Op.outcome_iff hinv.valid hinv.apart turn.op).2 hallowed
  have hperm := Op.outcome_perm hinv.valid hinv.apart houtcome
  obtain ⟨hvalid, -, -⟩ := hinv.after hallowed hhonest.owner hnow hmeets.aborts
  have haccept : accept records = .ok () := by
    refine accept_eq_ok (hvalid.perm hperm) ?_
    rw [fileBytes_perm hperm]
    exact hmeets.fits hallowed
  rw [Turn.run, houtcome, hdisk, replaceState_ok haccept]

end

theorem abort_refused {dateParse : DateParse} {m : Machine} (hinv : Inv m) {turn : Turn}
    {text : String} (hop : turn.op = .abortLaunch text) {record : DeveloperRuntimeOwnershipRecord}
    (hin : record ∈ m.stored) (hname : Names text record) (hphase : record.phase = .launchIntent) :
    (turn.run dateParse m.stored).2 ≠ .ok () := by
  intro hok
  have hrun : turn.run dateParse m.stored = ((turn.run dateParse m.stored).1, .ok ()) := by
    rw [← hok]
  rcases replaceState_cases hrun with ⟨-, e, he⟩ | ⟨records, _, houtcome, haccept, -, -⟩
  · cases he
  · rw [hop] at houtcome
    obtain ⟨-, rfl⟩ := (abortLaunch_eq_ok hinv.valid).1 houtcome
    rw [accept] at haccept
    obtain ⟨read, hread, -⟩ := bind_eq_ok.1 haccept
    rw [validateState] at hread
    simp only [bind_eq_ok] at hread
    obtain ⟨_, -, checked, hpass, -⟩ := hread
    have haborted : inPhase turn.env .terminated record
        ∈ (Op.abortLaunch text).after dateParse turn.env m.stored := by
      refine List.mem_append_left _ (List.mem_map.2 ⟨record, hin, ?_⟩)
      rw [Op.next, if_pos ⟨hname, hphase⟩]
    obtain ⟨good, -, hgood⟩ := exists_answer_of_mapM hpass haborted
    obtain ⟨hsound, heq, -⟩ := validateRecord_eq_ok hgood
    have hsome := hsound.committed
    rw [heq] at hsome
    have hnone := (hinv.valid.sound record hin).committed
    rw [hphase, ← show true = record.processInstance.isSome from hsome] at hnone
    cases hnone

-- ===== runs

/-- A step of a run whose surroundings are honest and that meets the
condition. -/
abbrev Kept (dateParse : DateParse) : Machine → Turn → Machine → Prop :=
  Where (stepsOf (step dateParse)) fun m turn => Honest dateParse m turn ∧ Meets dateParse m turn

section
variable {dateParse : DateParse} {m m' : Machine} {turns : List Turn}

theorem inv_start (now : Instant) : Inv (start now) where
  valid := ⟨Nat.zero_le _, fun _ hin => (nomatch hin), List.nodup_nil⟩
  apart := List.Pairwise.nil
  created := fun _ hin => (nomatch hin)

theorem inv_of_run (hrun : Run (Kept dateParse) m turns m') (hinv : Inv m) : Inv m' :=
  hrun.invariant hinv fun h hstep => h.step hstep.2.1 hstep.2.2 hstep.1

/-- A record that is no longer active never is again. -/
theorem inactive_of_run (hrun : Run (Kept dateParse) m turns m') (hinv : Inv m)
    {record : DeveloperRuntimeOwnershipRecord} (hin : record ∈ m.stored)
    (hinactive : record.phase.active = false) :
    ∃ record' ∈ m'.stored, record'.processSessionId = record.processSessionId
    ∧ record'.phase.active = false := by
  induction hrun with
  | nil => exact ⟨record, hin, rfl, hinactive⟩
  | snoc hrun hlast ih =>
    obtain ⟨old, hold, hid, hphase⟩ := ih
    obtain ⟨new, hnew, hmoved⟩ := exists_moved (inv_of_run hrun hinv) hlast.1 hold
    refine ⟨new, hnew, hmoved.fixed.1.trans hid, ?_⟩
    refine Bool.eq_false_of_not_eq_true fun hactive => ?_
    rw [hmoved.active hactive] at hphase
    cases hphase

/-- In a run without the two slips: active records share no port, the file
passes its validation, an allowed operation whose write goes through
answers, a record whose process runs leaves its phase when the process
has ended, and an inactive record stays inactive. To abort a launch intent
is refused. -/
theorem ownership_kept {now : Instant} (hrun : Run (Kept dateParse) (start now) turns m) :
    validateState m.stored = .ok m.stored ∧ PortsApart m.stored
    ∧ (∀ turn m', Kept dateParse m turn m' →
      (turn.op.Allowed dateParse turn.env m.stored → turn.env.disk = .durable →
          (turn.run dateParse m.stored).2 = .ok ())
        ∧ ∀ record ∈ m.stored, record.live → ∃ record' ∈ m'.stored,
          record'.processSessionId = record.processSessionId
            ∧ record'.processInstance = record.processInstance
            ∧ (record'.live ∨ ∃ process ∈ record.processInstance,
              Ended dateParse turn.ended process))
    ∧ (∀ (turn : Turn) text, turn.op = .abortLaunch text → ∀ record ∈ m.stored, Names text record →
      record.phase = .launchIntent → (turn.run dateParse m.stored).2 ≠ .ok ())
    ∧ ∀ turns' m', Run (Kept dateParse) m turns' m' → ∀ record ∈ m.stored,
      record.phase.active = false → ∃ record' ∈ m'.stored,
        record'.processSessionId = record.processSessionId ∧ record'.phase.active = false := by
  have hinv : Inv m := inv_of_run hrun (inv_start now)
  refine ⟨hinv.valid.validateState, hinv.apart, ?_, ?_, ?_⟩
  · intro turn m' hstep
    obtain ⟨hsome, hhonest, hmeets⟩ := hstep
    refine ⟨?_, ?_⟩
    · exact allowed_succeeds hinv hhonest hmeets (step_eq_some hsome).1
    · intro record hin hlive
      obtain ⟨record', hin', hmoved⟩ := exists_moved hinv hsome hin
      obtain ⟨hprocess, hphase⟩ := hmoved.live hin hhonest hmeets hlive
      exact ⟨record', hin', hmoved.fixed.1, hprocess, hphase⟩
  · intro turn text hop record hin hname hphase
    exact abort_refused hinv hop hin hname hphase
  · intro turns' m' hrun' record hin hinactive
    exact inactive_of_run hrun' hinv hin hinactive

end

-- ===== samples

def noDates : DateParse := fun _ => none

def sampleProcess (pid : Nat) : ProcessInstanceIdentity := { pid, started := "1700000000" }

def sampleId : String := "00000000-0000-4000-8000-000000000001"

def sampleTurn (observation : ProcessInstanceObservation) (op : Op) : Turn where
  env :=
    { now := ⟨0, zero_instant⟩
      observe := fun _ => observation
      observeLauncher := fun _ => .live (some (sampleProcess 1))
      ownerProcess := sampleProcess 1
      disk := .durable }
  op := op
  ended := []

/-- A launch on port 8080, its commit to process 7, and what follows it. -/
def sampleBegin : Turn :=
  sampleTurn .unknown (.beginLaunch
    { processSessionId := sampleId, developerSessionId := "dev", ports := [.int 8080] })
def sampleCommit : Turn := sampleTurn .unknown (.commitLaunch sampleId (sampleProcess 7))
def sampleAbort : Turn := sampleTurn .unknown (.abortLaunch sampleId)
def sampleList : Turn := sampleTurn .unknown .listAll
def sampleClaim : Turn := sampleTurn (.live (some (sampleProcess 7))) (.claimTermination sampleId)

def sampleRecord (phase : DeveloperRuntimeOwnershipPhase) : DeveloperRuntimeOwnershipRecord where
  processSessionId := ⟨sampleId, by decide⟩
  developerSessionId := "dev"
  phase := phase
  launcherProcessInstance := sampleProcess 1
  processInstance := if phase.committed then some (sampleProcess 7) else none
  ports := [8080]
  createdAt := ⟨0, zero_instant⟩
  updatedAt := ⟨0, zero_instant⟩

def sampleMachine (phase : DeveloperRuntimeOwnershipPhase) : Machine where
  stored := [sampleRecord phase]
  now := ⟨0, zero_instant⟩
  ended := []

theorem sample_steps :
    step noDates (start ⟨0, by decide⟩) sampleBegin = some (sampleMachine .launchIntent)
    ∧ step noDates (sampleMachine .launchIntent) sampleCommit = some (sampleMachine .running)
    ∧ step noDates (sampleMachine .running) sampleList = some (sampleMachine .exited) := by
  refine ⟨?_, ?_, ?_⟩
  · decide +kernel
  · decide +kernel
  · decide +kernel

theorem sample_honest {phase : DeveloperRuntimeOwnershipPhase}
    {observation : ProcessInstanceObservation} {op : Op}
    (hobservation : observation = .unknown ∨ observation = .live (some (sampleProcess 7)))
    (hop : ∀ text identity, op ≠ .markExited text identity) :
    Honest noDates (sampleMachine phase) (sampleTurn observation op) where
  ended := List.Subset.refl _
  owner := show validProcessInstance (sampleProcess 1) = true by decide
  truthful := by
    intro record hin process hprocess _ hreports
    obtain rfl := List.mem_singleton.1 hin
    have hseven : process = sampleProcess 7 := by
      rw [Option.mem_def, sampleRecord] at hprocess
      split at hprocess
      · exact (Option.some.inj hprocess).symm
      · cases hprocess
    rcases hreports with hdead | ⟨identity, hlive, hother⟩
    · rcases hobservation with rfl | rfl
      · cases hdead
      · cases hdead
    · rcases hobservation with rfl | rfl
      · cases hlive
      · cases hlive
        rw [hseven] at hother
        exact absurd hother (by decide)
  exited := fun text identity heq => absurd heq (hop text identity)

theorem sample_honest_start : Honest noDates (start ⟨0, by decide⟩) sampleBegin where
  ended := List.Subset.refl _
  owner := by decide
  truthful := fun _ hin => (nomatch hin)
  exited := fun _ _ heq => (nomatch heq)

/-- Of a launch intent, an abort that its phase allows is refused. Of a
process that runs, an observation that is not certain ends its record. -/
theorem abort_refused_and_live_exited :
    (Run (Where (stepsOf (step noDates)) (Honest noDates)) (start ⟨0, by decide⟩) [sampleBegin]
        (sampleMachine .launchIntent) ∧ Honest noDates (sampleMachine .launchIntent) sampleAbort
      ∧ sampleAbort.op.Allowed noDates sampleAbort.env (sampleMachine .launchIntent).stored
      ∧ sampleAbort.env.disk = .durable
      ∧ (sampleAbort.run noDates (sampleMachine .launchIntent).stored).2 ≠ .ok ())
    ∧ Run (Where (stepsOf (step noDates)) (Honest noDates)) (start ⟨0, by decide⟩)
        [sampleBegin, sampleCommit] (sampleMachine .running)
      ∧ Honest noDates (sampleMachine .running) sampleList
      ∧ step noDates (sampleMachine .running) sampleList = some (sampleMachine .exited)
      ∧ ¬ Ended noDates sampleList.ended (sampleProcess 7) := by
  have hbegin : Run (Where (stepsOf (step noDates)) (Honest noDates)) (start ⟨0, by decide⟩)
      ([] ++ [sampleBegin]) (sampleMachine .launchIntent) :=
    Run.snoc Run.nil ⟨sample_steps.1, sample_honest_start⟩
  have hallowed : sampleAbort.op.Allowed noDates sampleAbort.env
      (sampleMachine .launchIntent).stored :=
    ⟨sampleRecord .launchIntent, List.mem_singleton.2 rfl, by decide +kernel, rfl⟩
  refine ⟨⟨hbegin, ?_, hallowed, rfl, ?_⟩, ?_, ?_, sample_steps.2.2, ?_⟩
  · exact sample_honest (.inl rfl) fun _ _ heq => (nomatch heq)
  · intro hok
    exact absurd (congrArg (fun answer => answer.toOption) hok) (by decide +kernel)
  · refine Run.snoc hbegin ⟨sample_steps.2.1, ?_⟩
    exact sample_honest (.inl rfl) fun _ _ heq => (nomatch heq)
  · exact sample_honest (.inl rfl) fun _ _ heq => (nomatch heq)
  · intro ⟨gone, hin, _⟩
    cases hin

/-- A launch, its commit and a claim of its termination while it runs: the
claim answers. -/
theorem ownership_kept_sample : PortsApart (sampleMachine .running).stored
    ∧ (sampleClaim.run noDates (sampleMachine .running).stored).2 = .ok () := by
  have hbegin : Kept noDates (start ⟨0, by decide⟩) sampleBegin (sampleMachine .launchIntent) :=
    ⟨sample_steps.1, sample_honest_start, fun _ heq => (nomatch heq), fun _ hin => (nomatch hin),
      fun _ => by decide +kernel⟩
  have hcommit : Kept noDates (sampleMachine .launchIntent) sampleCommit
      (sampleMachine .running) := by
    refine ⟨sample_steps.2.1, sample_honest (.inl rfl) fun _ _ heq => (nomatch heq),
      fun _ heq => (nomatch heq), ?_, fun _ => by decide +kernel⟩
    intro record hin hlive
    obtain rfl := List.mem_singleton.1 hin
    exact absurd hlive (by decide)
  have hclaim : Kept noDates (sampleMachine .running) sampleClaim
      (sampleMachine .terminationPending) := by
    refine ⟨?_, sample_honest (.inr rfl) fun _ _ heq => (nomatch heq),
      fun _ heq => (nomatch heq), fun _ _ _ _ _ _ _ => ⟨sampleProcess 7, rfl⟩,
      fun _ => by decide +kernel⟩
    show step noDates (sampleMachine .running) sampleClaim = _
    decide +kernel
  have h := ownership_kept (Run.snoc (Run.snoc Run.nil hbegin) hcommit)
  refine ⟨h.2.1, (h.2.2.1 sampleClaim _ hclaim).1 ?_ rfl⟩
  exact ⟨sampleRecord .running, List.mem_singleton.2 rfl, by decide +kernel, rfl⟩

end OperatorRuntime.DeveloperRuntime
