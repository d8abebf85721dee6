/-
What each operation of the runtime ownership store makes of records that
pass their own validation (`Valid`): it answers exactly where it is
allowed (`Op.outcome_iff`), and then the records are, up to their order,
those of `Op.after`: each changed by `Op.next`, and perhaps a new one.
-/
import OperatorRuntime.Developer.RuntimeOwnership
import Mathlib.Data.List.Dedup
import OperatorRuntime.Lib.Keyed
import OperatorRuntime.Lib.Passes

namespace OperatorRuntime.DeveloperRuntime

open Lib

-- ===== sound

/-- What `validateRecord` asks of a record. -/
structure Sound (record : DeveloperRuntimeOwnershipRecord) : Prop where
  developerSessionId : validId record.developerSessionId "developerSessionId"
    = .ok record.developerSessionId
  launcher : validProcessInstance record.launcherProcessInstance = true
  identity : ∀ identity ∈ record.processInstance, validProcessInstance identity = true
  committed : record.phase.committed = record.processInstance.isSome
  ports : normalizePorts (record.ports.map fun port : Nat => .int port) = .ok record.ports
  times : record.createdAt.val ≤ record.updatedAt.val

theorem validId_eq {input label text : String} (h : validId input label = .ok text) :
    text = input := by
  rw [validId] at h
  simp only [bind_eq_ok, Except.ok.injEq] at h
  obtain ⟨_, -, rfl⟩ := h
  rfl

theorem normalizePorts_eq_ok {input : List Number} {ports : List Nat} :
    normalizePorts input = .ok ports ↔ input.length ≤ maxPortsPerSession
    ∧ ∃ found, input.mapM normalizePort = .ok found
      ∧ ports = found.dedup.insertionSort (· ≤ ·) := by
  rw [normalizePorts]
  simp only [bind_eq_ok, rejectIf_eq_ok, Except.ok.injEq, not_lt]
  constructor
  · rintro ⟨_, hlen, found, hfound, heq⟩
    exact ⟨hlen, found, hfound, heq.symm⟩
  · rintro ⟨hlen, found, hfound, heq⟩
    exact ⟨(), hlen, found, hfound, heq.symm⟩

theorem normalizePort_again {value : Number} {port : Nat} (h : normalizePort value = .ok port) :
    normalizePort (.int port) = .ok port := by
  have hvalue : value = .int port := by
    rw [normalizePort] at h
    split at h
    · next port' hsome =>
      obtain ⟨hsafe, -⟩ := Option.filter_eq_some_iff.1 hsome
      rw [Number.safeFrom?_eq_some hsafe, Except.ok.inj h]
    · cases h
  rw [hvalue] at h
  exact h

theorem normalizePorts_again {input : List Number} {ports : List Nat}
    (h : normalizePorts input = .ok ports) :
    normalizePorts (ports.map fun port : Nat => .int port) = .ok ports := by
  obtain ⟨hlen, found, hfound, rfl⟩ := normalizePorts_eq_ok.1 h
  have hnodup : (found.dedup.insertionSort (· ≤ ·)).Nodup :=
    (List.perm_insertionSort _ _).nodup_iff.2 found.nodup_dedup
  have hlength : (found.dedup.insertionSort (· ≤ ·)).length ≤ input.length := by
    rw [List.length_insertionSort, ← length_mapM hfound]
    exact (List.dedup_sublist found).length_le
  refine normalizePorts_eq_ok.2 ⟨?_, found.dedup.insertionSort (· ≤ ·), ?_, ?_⟩
  · rw [List.length_map]
    exact hlength.trans hlen
  · refine mapM_map_eq_ok ?_
    intro port hport
    have hin : port ∈ found := List.mem_dedup.1 ((List.mem_insertionSort _).1 hport)
    obtain ⟨value, -, hvalue⟩ := exists_of_mapM_eq_ok hfound hin
    exact normalizePort_again hvalue
  · rw [List.dedup_eq_self.2 hnodup]
    exact (List.Pairwise.insertionSort_eq (List.pairwise_insertionSort _ _)).symm

theorem validateRecord_eq_ok {raw record : DeveloperRuntimeOwnershipRecord}
    (h : validateRecord raw = .ok record) :
    Sound record ∧ record = { raw with ports := record.ports }
      ∧ normalizePorts (raw.ports.map fun port : Nat => .int port) = .ok record.ports := by
  rw [validateRecord] at h
  simp only [bind_eq_ok, corruptIf, rejectIf_eq_ok, Except.ok.injEq] at h
  obtain ⟨session, hsession, _, hlauncher, _, hidentity, _, hwith, _, hwithout, ports, hports, _,
    htimes, rfl⟩ := h
  obtain rfl := validId_eq hsession
  refine ⟨⟨hsession, Bool.eq_true_of_not_eq_false hlauncher, ?_, ?_, normalizePorts_again hports,
    not_lt.1 htimes⟩, rfl, hports⟩
  · intro identity hid
    by_contra hbad
    exact hidentity ⟨identity, hid, Bool.eq_false_of_not_eq_true hbad⟩
  · show raw.phase.committed = raw.processInstance.isSome
    cases hphase : raw.phase.committed with
    | true =>
      rw [eq_comm, Option.isSome_iff_ne_none]
      exact fun hnone => hwith ⟨hphase, hnone⟩
    | false =>
      rw [eq_comm, Option.isSome_eq_false_iff, Option.isNone_iff_eq_none]
      by_contra hsome
      exact hwithout ⟨hphase, hsome⟩

theorem Sound.validateRecord {record : DeveloperRuntimeOwnershipRecord} (h : Sound record) :
    validateRecord record = .ok record := by
  rw [DeveloperRuntime.validateRecord]
  simp only [bind_eq_ok, corruptIf, rejectIf_eq_ok, Except.ok.injEq]
  refine ⟨_, h.developerSessionId, (), ?_, (), ?_, (), ?_, (), ?_, _, h.ports, (),
    not_lt.2 h.times, rfl⟩
  · rw [h.launcher]
    exact Bool.noConfusion
  · rintro ⟨identity, hid, hbad⟩
    rw [h.identity identity hid] at hbad
    cases hbad
  · rintro ⟨hphase, hnone⟩
    rw [h.committed, hnone] at hphase
    cases hphase
  · rintro ⟨hphase, hsome⟩
    rw [h.committed, Option.isSome_eq_false_iff, Option.isNone_iff_eq_none] at hphase
    exact hsome hphase

/-- What `validateState` asks of the records. -/
structure Valid (records : OwnershipState) : Prop where
  size : records.length ≤ maxRecords
  sound : ∀ record ∈ records, Sound record
  ids : (records.map (·.processSessionId)).Nodup

theorem Valid.validateState {records : OwnershipState} (h : Valid records) :
    validateState records = .ok records := by
  rw [DeveloperRuntime.validateState]
  simp only [bind_eq_ok, corruptIf, rejectIf_eq_ok, Except.ok.injEq]
  exact ⟨(), not_lt.2 h.size, records, mapM_eq_self fun r hr => (h.sound r hr).validateRecord, (),
    not_not.2 h.ids, rfl⟩

theorem Valid.perm {records records' : OwnershipState} (h : Valid records)
    (hperm : records'.Perm records) : Valid records' where
  size := hperm.length_eq.trans_le h.size
  sound := fun r hr => h.sound r (hperm.mem_iff.1 hr)
  ids := (hperm.map _).nodup_iff.2 h.ids

-- ===== moves

/-- The call names the session of the record. -/
def Names (text : String) (record : DeveloperRuntimeOwnershipRecord) : Prop :=
  (validUuid text "processSessionId").toOption = some record.processSessionId

instance (text : String) (record : DeveloperRuntimeOwnershipRecord) :
    Decidable (Names text record) :=
  inferInstanceAs (Decidable (_ = _))

section
variable (dateParse : DateParse) (env : Environment)

/-- What an operation makes of one record. -/
def Op.next (record : DeveloperRuntimeOwnershipRecord) : Op → DeveloperRuntimeOwnershipRecord
  | .commitLaunch text identity =>
    if Names text record ∧ record.phase = .launchIntent then committedOf env identity record
    else record
  | .abortLaunch text =>
    if Names text record ∧ record.phase = .launchIntent then inPhase env .terminated record
    else record
  | .claimTermination text =>
    if Names text record ∧ record.live then
      if ∃ process ∈ record.processInstance,
          sameLive dateParse process (env.observe process.pid) = true then
        inPhase env .terminationPending record
      else inPhase env .exited record
    else record
  | .markExited text _ =>
    if Names text record ∧ record.live then inPhase env .exited record else record
  | .markTerminated text _ =>
    if Names text record ∧ record.phase.committed = true then inPhase env .terminated record
    else record
  | .recover => reconcileRecord dateParse env (promoteRecord dateParse env record)
  | .beginLaunch _ => reconcileRecord dateParse env record
  | .listForDeveloperSession _ => reconcileRecord dateParse env record
  | .listAll => reconcileRecord dateParse env record
  | .get _ => reconcileRecord dateParse env record

/-- The record an operation adds. -/
@[grind =] def Op.created : Op → OwnershipState
  | .beginLaunch input =>
    match validUuid input.processSessionId "processSessionId", normalizePorts input.ports with
    | .ok id, .ok ports => [launchOf env id input.developerSessionId ports]
    | _, _ => []
  | .commitLaunch _ _ => []
  | .abortLaunch _ => []
  | .recover => []
  | .listForDeveloperSession _ => []
  | .listAll => []
  | .get _ => []
  | .claimTermination _ => []
  | .markExited _ _ => []
  | .markTerminated _ _ => []

/-- The records after an operation, up to their order. -/
def Op.after (stored : OwnershipState) (op : Op) : OwnershipState :=
  stored.map (fun record => op.next dateParse env record) ++ op.created env

/-- The operation is called with arguments that pass its checks, in a phase
that it allows. -/
def Op.Allowed (stored : OwnershipState) : Op → Prop
  | .beginLaunch input =>
    (∃ id, validUuid input.processSessionId "processSessionId" = .ok id
        ∧ ∀ record ∈ stored, record.processSessionId ≠ id)
      ∧ validId input.developerSessionId "developerSessionId" = .ok input.developerSessionId
      ∧ (∃ ports, normalizePorts input.ports = .ok ports
        ∧ ∀ record ∈ stored, (reconcileRecord dateParse env record).phase.active = true →
          ∀ port ∈ record.ports, port ∉ ports)
      ∧ stored.length < maxRecords
  | .commitLaunch text identity =>
    validProcessInstance identity = true
      ∧ ∃ record ∈ stored, Names text record ∧ record.phase = .launchIntent
  | .abortLaunch text => ∃ record ∈ stored, Names text record ∧ record.phase = .launchIntent
  | .recover => True
  | .listForDeveloperSession text => validId text "developerSessionId" = .ok text
  | .listAll => True
  | .get text => ∃ record ∈ stored, Names text record
  | .claimTermination text =>
    ∃ record ∈ stored, Names text record ∧ record.phase.committed = true
  | .markExited text identity =>
    validProcessInstance identity = true ∧ ∃ record ∈ stored, Names text record
        ∧ ∃ process ∈ record.processInstance,
          sameProcessInstance dateParse process identity = true
  | .markTerminated text identity =>
    validProcessInstance identity = true ∧ (∃ record ∈ stored, Names text record
        ∧ ∃ process ∈ record.processInstance,
          sameProcessInstance dateParse process identity = true)
      ∧ sameLive dateParse identity (env.observe identity.pid) = false

end

section
variable {stored : OwnershipState} {text : String} {record : DeveloperRuntimeOwnershipRecord}

theorem names_iff : Names text record
    ↔ validUuid text "processSessionId" = .ok record.processSessionId := toOption_eq_some

theorem requiredRecord_eq_ok (hids : (stored.map (·.processSessionId)).Nodup) {id : SessionUuid} :
    requiredRecord stored id = .ok record ↔ record ∈ stored ∧ record.processSessionId = id := by
  rw [requiredRecord, ← find?_key_eq_some hids]
  split
  · next found hfound => rw [hfound, Option.some.injEq, Except.ok.injEq]
  · next hnone =>
    rw [hnone]
    exact ⟨fun h => (nomatch h), fun h => (nomatch h)⟩

theorem Names.unique (hids : (stored.map (·.processSessionId)).Nodup)
    {other : DeveloperRuntimeOwnershipRecord} (hname : Names text record) (hin : record ∈ stored)
    (hname' : Names text other) (hin' : other ∈ stored) : other = record :=
  List.inj_on_of_nodup_map hids hin' hin (Option.some.inj (hname'.symm.trans hname))

theorem putRecord_eq (hids : (stored.map (·.processSessionId)).Nodup) (hname : Names text record)
    (hin : record ∈ stored) {f g : DeveloperRuntimeOwnershipRecord → DeveloperRuntimeOwnershipRecord}
    (hrecord : g record = f record)
    (hother : ∀ other ∈ stored, ¬ Names text other → g other = other) :
    putRecord stored record.processSessionId f = stored.map g := by
  rw [putRecord]
  refine List.map_congr_left ?_
  intro other hother'
  split
  · next heq =>
    rw [List.inj_on_of_nodup_map hids hother' hin heq, hrecord]
  · next hne =>
    refine (hother other hother' ?_).symm
    intro hname'
    rw [hname.unique hids hin hname' hother'] at hne
    exact hne rfl

theorem assertPortsAvailable_eq_ok {ports : List Nat} {self : SessionUuid} {u : Unit} :
    assertPortsAvailable stored ports self = .ok u
    ↔ ∀ other ∈ stored, other.processSessionId ≠ self → other.phase.active = true →
      ∀ port ∈ other.ports, port ∉ ports := by
  rw [assertPortsAvailable]
  split
  · next hbusy =>
    obtain ⟨other, hin, hne, hactive, port, hport, hports⟩ := hbusy
    exact ⟨fun h => (nomatch h), fun h => absurd hports (h other hin hne hactive port hport)⟩
  · next hfree =>
    refine ⟨fun _ other hin hne hactive port hport hports => ?_, fun _ => rfl⟩
    exact hfree ⟨other, hin, hne, hactive, port, hport, hports⟩

theorem forget_eq_ok {α : Type} {outcome : Result (OwnershipState × α)}
    {records : OwnershipState} {u : Unit} :
    Op.outcome.forget outcome = .ok (records, u) ↔ ∃ answer, outcome = .ok (records, answer) := by
  cases outcome with
  | error e => exact ⟨fun h => (nomatch h), fun ⟨_, h⟩ => (nomatch h)⟩
  | ok pair =>
    obtain ⟨made, answer⟩ := pair
    constructor
    · intro h
      obtain ⟨rfl, -⟩ := Prod.mk.inj (Except.ok.inj h)
      exact ⟨answer, rfl⟩
    · intro ⟨answer', h⟩
      obtain ⟨rfl, -⟩ := Prod.mk.inj (Except.ok.inj h)
      rfl

end

-- ===== outcomes

section
variable {dateParse : DateParse} {env : Environment} {stored records : OwnershipState}

@[simp] theorem reconcileRecord_id (record : DeveloperRuntimeOwnershipRecord) :
    (reconcileRecord dateParse env record).processSessionId = record.processSessionId := by
  rw [reconcileRecord]
  split
  · rfl
  · rfl

@[simp] theorem reconcileRecord_ports (record : DeveloperRuntimeOwnershipRecord) :
    (reconcileRecord dateParse env record).ports = record.ports := by
  rw [reconcileRecord]
  split
  · rfl
  · rfl

theorem reconcile_ids : (reconcileDeadRecords dateParse env stored).map (·.processSessionId)
    = stored.map (·.processSessionId) := by
  rw [reconcileDeadRecords, List.map_map]
  refine List.map_congr_left ?_
  intro record _
  exact reconcileRecord_id record

theorem beginLaunch_eq_ok (hvalid : Valid stored) {input : LaunchInput} :
    (Op.beginLaunch input).outcome dateParse env stored = .ok (records, ())
    ↔ (Op.beginLaunch input).Allowed dateParse env stored
      ∧ records = ((Op.beginLaunch input).after dateParse env stored).insertionSort
        fun a b => a.processSessionId.val ≤ b.processSessionId.val := by
  rw [Op.outcome, forget_eq_ok]
  simp only [beginLaunch, bind_eq_ok, rejectIf_eq_ok, Except.ok.injEq, Prod.mk.injEq,
    assertPortsAvailable_eq_ok, hvalid.validateState, not_le, not_exists, not_and]
  constructor
  · intro h
    obtain ⟨_, id, hid, session, hsession, ports, hports, _, rfl, _, hfresh, _, hfree, _, hroom,
      heq, -⟩ := h
    obtain rfl := validId_eq hsession
    have hids : ∀ record ∈ stored, record.processSessionId ≠ id := by
      intro record hin
      have hne := hfresh _ (List.mem_map_of_mem hin)
      rw [reconcileRecord_id] at hne
      exact hne
    refine ⟨⟨⟨id, hid, hids⟩, hsession, ⟨ports, hports, ?_⟩, ?_⟩, ?_⟩
    · intro record hin hactive port hport
      refine hfree _ (List.mem_map_of_mem hin) ?_ hactive port ?_
      · rw [reconcileRecord_id]
        exact hids record hin
      · rw [reconcileRecord_ports]
        exact hport
    · rw [reconcileDeadRecords, List.length_map] at hroom
      exact hroom
    · rw [← heq, Op.after, Op.created, hid, hports]
      rfl
  · rintro ⟨⟨⟨id, hid, hids⟩, hsession, ⟨ports, hports, hfree⟩, hroom⟩, heq⟩
    refine ⟨_, id, hid, _, hsession, ports, hports, _, rfl, (), ?_, (), ?_, (), ?_, ?_, rfl⟩
    · intro record hin
      obtain ⟨old, hold, rfl⟩ := List.mem_map.1 hin
      rw [reconcileRecord_id]
      exact hids old hold
    · intro record hin _ hactive port hport
      obtain ⟨old, hold, rfl⟩ := List.mem_map.1 hin
      rw [reconcileRecord_ports] at hport
      exact hfree old hold hactive port hport
    · rw [reconcileDeadRecords, List.length_map]
      exact hroom
    · rw [heq, Op.after, Op.created, hid, hports]
      rfl

/-- The records are not both active, or declare no port in common. -/
def NoSharedPort (a b : DeveloperRuntimeOwnershipRecord) : Prop :=
  a.phase.active = true → b.phase.active = true → ∀ port ∈ a.ports, port ∉ b.ports

instance : Std.Symm NoSharedPort where
  symm _ _ hab hb ha port hport hport' := hab ha hb port hport' hport

/-- No two records in an active phase declare one port. -/
def PortsApart (records : OwnershipState) : Prop := records.Pairwise NoSharedPort

theorem putRecord_eq_after (hids : (stored.map (·.processSessionId)).Nodup) {text : String}
    {record : DeveloperRuntimeOwnershipRecord} (hname : Names text record) (hin : record ∈ stored)
    {op : Op} {f : DeveloperRuntimeOwnershipRecord → DeveloperRuntimeOwnershipRecord}
    (hcreated : op.created env = []) (hrecord : op.next dateParse env record = f record)
    (hother : ∀ other, ¬ Names text other → op.next dateParse env other = other) :
    putRecord stored record.processSessionId f = op.after dateParse env stored := by
  rw [Op.after, hcreated, List.append_nil]
  exact putRecord_eq hids hname hin hrecord fun other _ hno => hother other hno

theorem commitLaunch_eq_ok (hvalid : Valid stored) (hapart : PortsApart stored) {text : String}
    {identity : ProcessInstanceIdentity} :
    (Op.commitLaunch text identity).outcome dateParse env stored = .ok (records, ())
    ↔ (Op.commitLaunch text identity).Allowed dateParse env stored
      ∧ records = (Op.commitLaunch text identity).after dateParse env stored := by
  have hafter : ∀ {record}, record ∈ stored → Names text record → record.phase = .launchIntent →
      putRecord stored record.processSessionId (committedOf env identity)
        = (Op.commitLaunch text identity).after dateParse env stored := by
    intro record hin hname hphase
    refine putRecord_eq_after hvalid.ids hname hin rfl ?_ ?_
    · rw [Op.next, if_pos ⟨hname, hphase⟩]
    · intro other hno
      rw [Op.next, if_neg fun h => hno h.1]
  rw [Op.outcome, forget_eq_ok]
  simp only [commitLaunch, requireIdentity, bind_eq_ok, rejectIf_eq_ok, Except.ok.injEq,
    Prod.mk.injEq, assertPortsAvailable_eq_ok, hvalid.validateState, ne_eq, not_not]
  constructor
  · intro h
    obtain ⟨_, id, hid, _, ⟨_, hidentity, rfl⟩, _, rfl, record, hrequired, _, hphase, _, -, heq, -⟩
      := h
    obtain ⟨hin, rfl⟩ := (requiredRecord_eq_ok hvalid.ids).1 hrequired
    have hname : Names text record := names_iff.2 hid
    rw [← heq, hafter hin hname hphase]
    exact ⟨⟨Bool.eq_true_of_not_eq_false hidentity, record, hin, hname, hphase⟩, rfl⟩
  · intro h
    obtain ⟨⟨hidentity, record, hin, hname, hphase⟩, rfl⟩ := h
    refine ⟨_, record.processSessionId, names_iff.1 hname, identity, ⟨(), ?_, rfl⟩, stored, rfl,
      record, (requiredRecord_eq_ok hvalid.ids).2 ⟨hin, rfl⟩, (), hphase, (), ?_,
      hafter hin hname hphase, rfl⟩
    · rw [hidentity]
      exact Bool.noConfusion
    · intro other hother hne hactive port hport
      refine List.Pairwise.forall hapart hother hin ?_ hactive ?_ port hport
      · intro heq
        rw [heq] at hne
        exact hne rfl
      · rw [hphase]
        rfl

theorem abortLaunch_eq_ok (hvalid : Valid stored) {text : String} :
    (Op.abortLaunch text).outcome dateParse env stored = .ok (records, ())
    ↔ (Op.abortLaunch text).Allowed dateParse env stored
      ∧ records = (Op.abortLaunch text).after dateParse env stored := by
  have hafter : ∀ {record}, record ∈ stored → Names text record → record.phase = .launchIntent →
      putRecord stored record.processSessionId (inPhase env .terminated)
        = (Op.abortLaunch text).after dateParse env stored := by
    intro record hin hname hphase
    refine putRecord_eq_after hvalid.ids hname hin rfl ?_ ?_
    · rw [Op.next, if_pos ⟨hname, hphase⟩]
    · intro other hno
      rw [Op.next, if_neg fun h => hno h.1]
  rw [Op.outcome]
  simp only [abortLaunch, bind_eq_ok, rejectIf_eq_ok, Except.ok.injEq, Prod.mk.injEq,
    hvalid.validateState, ne_eq, not_not, and_true]
  constructor
  · intro h
    obtain ⟨id, hid, _, rfl, record, hrequired, _, hphase, heq⟩ := h
    obtain ⟨hin, rfl⟩ := (requiredRecord_eq_ok hvalid.ids).1 hrequired
    have hname : Names text record := names_iff.2 hid
    rw [← heq, hafter hin hname hphase]
    exact ⟨⟨record, hin, hname, hphase⟩, rfl⟩
  · intro h
    obtain ⟨⟨record, hin, hname, hphase⟩, rfl⟩ := h
    exact ⟨record.processSessionId, names_iff.1 hname, stored, rfl, record,
      (requiredRecord_eq_ok hvalid.ids).2 ⟨hin, rfl⟩, (), hphase, hafter hin hname hphase⟩

theorem recover_eq_ok (hvalid : Valid stored) :
    Op.recover.outcome dateParse env stored = .ok (records, ())
    ↔ Op.recover.Allowed dateParse env stored
      ∧ records = Op.recover.after dateParse env stored := by
  have hafter : reconcileDeadRecords dateParse env (stored.map (promoteRecord dateParse env))
      = Op.recover.after dateParse env stored := by
    rw [reconcileDeadRecords, List.map_map, Op.after, Op.created, List.append_nil]
    rfl
  rw [Op.outcome, forget_eq_ok]
  simp only [recover, bind_eq_ok, Except.ok.injEq, Prod.mk.injEq, hvalid.validateState]
  constructor
  · rintro ⟨_, _, rfl, heq, _⟩
    exact ⟨trivial, heq.symm.trans hafter⟩
  · rintro ⟨_, heq⟩
    exact ⟨_, stored, rfl, hafter.trans heq.symm, rfl⟩

theorem listAll_eq_ok (hvalid : Valid stored) :
    Op.listAll.outcome dateParse env stored = .ok (records, ())
    ↔ Op.listAll.Allowed dateParse env stored
      ∧ records = Op.listAll.after dateParse env stored := by
  have hafter : reconcileDeadRecords dateParse env stored
      = Op.listAll.after dateParse env stored := by
    rw [Op.after, Op.created, List.append_nil]
    rfl
  rw [Op.outcome, forget_eq_ok]
  simp only [listAll, bind_eq_ok, Except.ok.injEq, Prod.mk.injEq, hvalid.validateState]
  constructor
  · rintro ⟨_, _, rfl, heq, _⟩
    exact ⟨trivial, heq.symm.trans hafter⟩
  · rintro ⟨_, heq⟩
    exact ⟨_, stored, rfl, hafter.trans heq.symm, rfl⟩

theorem listForDeveloperSession_eq_ok (hvalid : Valid stored) {text : String} :
    (Op.listForDeveloperSession text).outcome dateParse env stored = .ok (records, ())
    ↔ (Op.listForDeveloperSession text).Allowed dateParse env stored
      ∧ records = (Op.listForDeveloperSession text).after dateParse env stored := by
  have hafter : reconcileDeadRecords dateParse env stored
      = (Op.listForDeveloperSession text).after dateParse env stored := by
    rw [Op.after, Op.created, List.append_nil]
    rfl
  rw [Op.outcome, forget_eq_ok]
  simp only [listForDeveloperSession, bind_eq_ok, Except.ok.injEq, Prod.mk.injEq,
    hvalid.validateState]
  constructor
  · rintro ⟨_, id, hid, _, rfl, heq, _⟩
    rw [validId_eq hid] at hid
    exact ⟨hid, heq.symm.trans hafter⟩
  · rintro ⟨hid, heq⟩
    exact ⟨_, text, hid, stored, rfl, hafter.trans heq.symm, rfl⟩

theorem get_eq_ok (hvalid : Valid stored) {text : String} :
    (Op.get text).outcome dateParse env stored = .ok (records, ())
    ↔ (Op.get text).Allowed dateParse env stored
      ∧ records = (Op.get text).after dateParse env stored := by
  have hafter : reconcileDeadRecords dateParse env stored
      = (Op.get text).after dateParse env stored := by
    rw [Op.after, Op.created, List.append_nil]
    rfl
  have hids : ((reconcileDeadRecords dateParse env stored).map (·.processSessionId)).Nodup := by
    rw [reconcile_ids]
    exact hvalid.ids
  rw [Op.outcome, forget_eq_ok]
  simp only [get, bind_eq_ok, Except.ok.injEq, Prod.mk.injEq, hvalid.validateState]
  constructor
  · rintro ⟨_, id, hid, _, rfl, row, hrow, heq, _⟩
    obtain ⟨hin, rfl⟩ := (requiredRecord_eq_ok hids).1 hrow
    obtain ⟨record, hrecord, rfl⟩ := List.mem_map.1 hin
    rw [reconcileRecord_id] at hid
    exact ⟨⟨record, hrecord, names_iff.2 hid⟩, heq.symm.trans hafter⟩
  · rintro ⟨⟨record, hin, hname⟩, heq⟩
    refine ⟨_, record.processSessionId, names_iff.1 hname, stored, rfl,
      reconcileRecord dateParse env record, ?_, hafter.trans heq.symm, rfl⟩
    exact (requiredRecord_eq_ok hids).2 ⟨List.mem_map_of_mem hin, reconcileRecord_id record⟩

theorem committed_iff {phase : DeveloperRuntimeOwnershipPhase} :
    phase.committed = true ↔ ¬ (phase = .ambiguous ∨ phase = .launchIntent) := by
  cases phase <;> decide

theorem live_iff {record : DeveloperRuntimeOwnershipRecord}
    (hphase : record.phase.committed = true) :
    record.live ↔ ¬ (record.phase = .terminated ∨ record.phase = .exited) := by
  rw [DeveloperRuntimeOwnershipRecord.live]
  cases hcase : record.phase <;> simp [hcase, DeveloperRuntimeOwnershipPhase.committed] at hphase ⊢

theorem committed_of_live {record : DeveloperRuntimeOwnershipRecord} (h : record.live) :
    record.phase.committed = true := by
  rcases h with hphase | hphase
  · rw [hphase]
    rfl
  · rw [hphase]
    rfl

theorem Sound.identity_of_committed {record : DeveloperRuntimeOwnershipRecord} (h : Sound record)
    (hphase : record.phase.committed = true) :
    ∃ process, record.processInstance = some process := by
  rw [h.committed] at hphase
  exact Option.isSome_iff_exists.1 hphase

theorem claimRecord_eq (dateParse : DateParse) (env : Environment)
    {record : DeveloperRuntimeOwnershipRecord} {text : String} (hsound : Sound record)
    (hname : Names text record) (hphase : record.phase.committed = true) :
    ∃ answer, claimRecord dateParse env record
    = .ok ((Op.claimTermination text).next dateParse env record, answer) := by
  obtain ⟨process, hprocess⟩ := hsound.identity_of_committed hphase
  have hlive : record.live ↔ ¬ (record.phase = .exited ∨ record.phase = .terminated) :=
    (live_iff hphase).trans (not_congr or_comm)
  rw [claimRecord, Op.next]
  by_cases hdone : record.phase = .exited ∨ record.phase = .terminated
  · rw [if_pos hdone, if_neg fun h => hlive.1 h.2 hdone]
    exact ⟨none, rfl⟩
  · rw [if_neg hdone, if_pos ⟨hname, hlive.2 hdone⟩, hprocess]
    dsimp only
    by_cases hsame : sameLive dateParse process (env.observe process.pid) = true
    · rw [if_neg ((Bool.not_eq_false _).mpr hsame), if_pos ⟨process, rfl, hsame⟩]
      exact ⟨some process, rfl⟩
    · rw [if_pos (Bool.eq_false_of_not_eq_true hsame), if_neg]
      · exact ⟨none, rfl⟩
      · intro ⟨other, hother, hsame'⟩
        rw [← Option.some.inj hother] at hsame'
        exact hsame hsame'

theorem claimTermination_eq_ok (hvalid : Valid stored) {text : String} :
    (Op.claimTermination text).outcome dateParse env stored = .ok (records, ())
    ↔ (Op.claimTermination text).Allowed dateParse env stored
      ∧ records = (Op.claimTermination text).after dateParse env stored := by
  have hafter : ∀ {record}, record ∈ stored → Names text record →
      putRecord stored record.processSessionId
          (fun _ => (Op.claimTermination text).next dateParse env record)
        = (Op.claimTermination text).after dateParse env stored := by
    intro record hin hname
    refine putRecord_eq_after hvalid.ids hname hin rfl rfl ?_
    intro other hno
    rw [Op.next, if_neg fun h => hno h.1]
  rw [Op.outcome, forget_eq_ok]
  simp only [claimTermination, bind_eq_ok, rejectIf_eq_ok, Except.ok.injEq, Prod.mk.injEq,
    hvalid.validateState, ← committed_iff]
  constructor
  · intro h
    obtain ⟨_, id, hid, _, rfl, record, hrequired, _, hphase, ⟨claimed, _⟩, hclaim, heq, -⟩ := h
    obtain ⟨hin, rfl⟩ := (requiredRecord_eq_ok hvalid.ids).1 hrequired
    have hname : Names text record := names_iff.2 hid
    obtain ⟨_, hnext⟩ := claimRecord_eq dateParse env (hvalid.sound record hin) hname hphase
    obtain ⟨rfl, -⟩ := Prod.mk.inj (Except.ok.inj (hnext.symm.trans hclaim))
    exact ⟨⟨record, hin, hname, hphase⟩, heq.symm.trans (hafter hin hname)⟩
  · rintro ⟨⟨record, hin, hname, hphase⟩, heq⟩
    obtain ⟨answer, hnext⟩ := claimRecord_eq dateParse env (hvalid.sound record hin) hname hphase
    exact ⟨answer, record.processSessionId, names_iff.1 hname, stored, rfl, record,
      (requiredRecord_eq_ok hvalid.ids).2 ⟨hin, rfl⟩, (), hphase, _, hnext,
      (hafter hin hname).trans heq.symm, rfl⟩

theorem any_same {record : DeveloperRuntimeOwnershipRecord} {identity : ProcessInstanceIdentity} :
    record.processInstance.any (sameProcessInstance dateParse · identity) = true
    ↔ ∃ process ∈ record.processInstance, sameProcessInstance dateParse process identity = true :=
  Option.any_eq_true _ _

theorem Sound.committed_of_identity {record : DeveloperRuntimeOwnershipRecord} (h : Sound record)
    {process : ProcessInstanceIdentity} (hprocess : process ∈ record.processInstance) :
    record.phase.committed = true := by
  rw [h.committed, Option.mem_def.1 hprocess]
  rfl

theorem markExited_eq_ok (hvalid : Valid stored) {text : String}
    {identity : ProcessInstanceIdentity} :
    (Op.markExited text identity).outcome dateParse env stored = .ok (records, ())
    ↔ (Op.markExited text identity).Allowed dateParse env stored
      ∧ records = (Op.markExited text identity).after dateParse env stored := by
  have hafter : ∀ {record}, record ∈ stored → Names text record → record.live →
      putRecord stored record.processSessionId (inPhase env .exited)
        = (Op.markExited text identity).after dateParse env stored := by
    intro record hin hname hlive
    refine putRecord_eq_after hvalid.ids hname hin rfl ?_ ?_
    · rw [Op.next, if_pos ⟨hname, hlive⟩]
    · intro other hno
      rw [Op.next, if_neg fun h => hno h.1]
  have hdone : ∀ {record}, record ∈ stored → Names text record → ¬ record.live →
      stored = (Op.markExited text identity).after dateParse env stored := by
    intro record hin hname hlive
    rw [Op.after, Op.created, List.append_nil]
    refine (List.map_id stored).symm.trans (List.map_congr_left ?_)
    intro other hother
    rw [Op.next, if_neg]
    · rfl
    · intro ⟨hname', hlive'⟩
      rw [hname.unique hvalid.ids hin hname' hother] at hlive'
      exact hlive hlive'
  rw [Op.outcome]
  simp only [markExited, requireIdentity, requireSame, bind_eq_ok, rejectIf_eq_ok,
    Except.ok.injEq, hvalid.validateState, Bool.not_eq_false, any_same]
  constructor
  · intro h
    obtain ⟨id, hid, _, ⟨_, hidentity, rfl⟩, _, rfl, record, hrequired, _,
      ⟨process, hprocess, hsame⟩, h⟩ := h
    obtain ⟨hin, rfl⟩ := (requiredRecord_eq_ok hvalid.ids).1 hrequired
    have hname : Names text record := names_iff.2 hid
    have hcommitted := (hvalid.sound record hin).committed_of_identity hprocess
    refine ⟨⟨hidentity, record, hin, hname, process, hprocess, hsame⟩, ?_⟩
    split at h
    · next hover =>
      rw [← (Prod.mk.inj (Except.ok.inj h)).1]
      exact hdone hin hname fun hlive => (live_iff hcommitted).1 hlive hover
    · next hover =>
      obtain ⟨_, -, h⟩ := bind_eq_ok.1 h
      rw [← (Prod.mk.inj (Except.ok.inj h)).1]
      exact hafter hin hname ((live_iff hcommitted).2 hover)
  · intro h
    obtain ⟨⟨hidentity, record, hin, hname, process, hprocess, hsame⟩, rfl⟩ := h
    have hcommitted := (hvalid.sound record hin).committed_of_identity hprocess
    refine ⟨record.processSessionId, names_iff.1 hname, identity, ⟨(), hidentity, rfl⟩, stored, rfl,
      record, (requiredRecord_eq_ok hvalid.ids).2 ⟨hin, rfl⟩, (), ⟨process, hprocess, hsame⟩, ?_⟩
    by_cases hover : record.phase = .terminated ∨ record.phase = .exited
    · rw [if_pos hover, ← hdone hin hname fun hlive => (live_iff hcommitted).1 hlive hover]
    · rw [if_neg hover, rejectIf_of_not (committed_iff.1 hcommitted),
        ← hafter hin hname ((live_iff hcommitted).2 hover)]
      rfl

theorem markTerminated_eq_ok (hvalid : Valid stored) {text : String}
    {identity : ProcessInstanceIdentity} :
    (Op.markTerminated text identity).outcome dateParse env stored = .ok (records, ())
    ↔ (Op.markTerminated text identity).Allowed dateParse env stored
      ∧ records = (Op.markTerminated text identity).after dateParse env stored := by
  have hafter : ∀ {record}, record ∈ stored → Names text record → ∀ {process},
      process ∈ record.processInstance →
      putRecord stored record.processSessionId (inPhase env .terminated)
        = (Op.markTerminated text identity).after dateParse env stored := by
    intro record hin hname process hprocess
    refine putRecord_eq_after hvalid.ids hname hin rfl ?_ ?_
    · rw [Op.next, if_pos ⟨hname, (hvalid.sound record hin).committed_of_identity hprocess⟩]
    · intro other hno
      rw [Op.next, if_neg fun h => hno h.1]
  rw [Op.outcome]
  simp only [markTerminated, requireIdentity, requireSame, bind_eq_ok, rejectIf_eq_ok,
    Except.ok.injEq, Prod.mk.injEq, hvalid.validateState, Bool.not_eq_false, Bool.not_eq_true,
    any_same, and_true]
  constructor
  · intro h
    obtain ⟨id, hid, _, ⟨_, hidentity, rfl⟩, _, rfl, record, hrequired, _,
      ⟨process, hprocess, hsame⟩, _, hdead, heq⟩ := h
    obtain ⟨hin, rfl⟩ := (requiredRecord_eq_ok hvalid.ids).1 hrequired
    have hname : Names text record := names_iff.2 hid
    exact ⟨⟨hidentity, ⟨record, hin, hname, process, hprocess, hsame⟩, hdead⟩,
      heq.symm.trans (hafter hin hname hprocess)⟩
  · intro h
    obtain ⟨⟨hidentity, ⟨record, hin, hname, process, hprocess, hsame⟩, hdead⟩, rfl⟩ := h
    exact ⟨record.processSessionId, names_iff.1 hname, identity, ⟨(), hidentity, rfl⟩, stored, rfl,
      record, (requiredRecord_eq_ok hvalid.ids).2 ⟨hin, rfl⟩, (), ⟨process, hprocess, hsame⟩, (),
      hdead, hafter hin hname hprocess⟩

theorem Op.outcome_iff (hvalid : Valid stored) (hapart : PortsApart stored) (op : Op) :
    (∃ records, op.outcome dateParse env stored = .ok (records, ()))
    ↔ op.Allowed dateParse env stored := by
  cases op with
  | beginLaunch input => simp only [beginLaunch_eq_ok hvalid, exists_and_left, exists_eq, and_true]
  | commitLaunch text identity =>
    simp only [commitLaunch_eq_ok hvalid hapart, exists_and_left, exists_eq, and_true]
  | abortLaunch text => simp only [abortLaunch_eq_ok hvalid, exists_and_left, exists_eq, and_true]
  | recover => simp only [recover_eq_ok hvalid, exists_and_left, exists_eq, and_true]
  | listForDeveloperSession text =>
    simp only [listForDeveloperSession_eq_ok hvalid, exists_and_left, exists_eq, and_true]
  | listAll => simp only [listAll_eq_ok hvalid, exists_and_left, exists_eq, and_true]
  | get text => simp only [get_eq_ok hvalid, exists_and_left, exists_eq, and_true]
  | claimTermination text =>
    simp only [claimTermination_eq_ok hvalid, exists_and_left, exists_eq, and_true]
  | markExited text identity =>
    simp only [markExited_eq_ok hvalid, exists_and_left, exists_eq, and_true]
  | markTerminated text identity =>
    simp only [markTerminated_eq_ok hvalid, exists_and_left, exists_eq, and_true]

theorem Op.outcome_perm (hvalid : Valid stored) (hapart : PortsApart stored) {op : Op}
    (h : op.outcome dateParse env stored = .ok (records, ())) :
    records.Perm (op.after dateParse env stored) := by
  cases op with
  | beginLaunch input =>
    rw [((beginLaunch_eq_ok hvalid).1 h).2]
    exact List.perm_insertionSort _ _
  | commitLaunch text identity => rw [((commitLaunch_eq_ok hvalid hapart).1 h).2]
  | abortLaunch text => rw [((abortLaunch_eq_ok hvalid).1 h).2]
  | recover => rw [((recover_eq_ok hvalid).1 h).2]
  | listForDeveloperSession text => rw [((listForDeveloperSession_eq_ok hvalid).1 h).2]
  | listAll => rw [((listAll_eq_ok hvalid).1 h).2]
  | get text => rw [((get_eq_ok hvalid).1 h).2]
  | claimTermination text => rw [((claimTermination_eq_ok hvalid).1 h).2]
  | markExited text identity => rw [((markExited_eq_ok hvalid).1 h).2]
  | markTerminated text identity => rw [((markTerminated_eq_ok hvalid).1 h).2]

end

end OperatorRuntime.DeveloperRuntime
