/-
The budget over runs. Whatever is cut off, the disk has one of three shapes
(`Shape`): nothing, the marker alone, or the marker and a ledger that its
reader accepts. A turn changes it in four ways (`Effect`); from these come
the bounds, the fixed outcomes, and the one way to lose the ledger: a call
cut off between the marker and the first ledger, after which every call is
refused (`read_of_torn`).
-/
import Mathlib.Algebra.Order.BigOperators.Group.List
import Mathlib.Algebra.Order.Ring.Nat
import OperatorRuntime.ModelBudget.Ledger

namespace OperatorRuntime.ModelBudget

open Lib

-- ===== valid files

/-- The reservations of a file that its reader accepts. -/
structure ValidFile (limits : Limits) (reservations : List RecordEntry) : Prop where
  few : reservations.length ≤ limits.maxCalls
  valid : ∀ e ∈ reservations, validRecord e
  calls : (reservations.map (·.callId)).Nodup
  ids : (reservations.map (·.reservationId)).Nodup
  tokens : tokensOf reservations ≤ limits.maxOutputTokens
  cost : costOf reservations ≤ limits.maxCostMicros

section
variable {limits : Limits} {disk : Disk} {items reservations : List RecordEntry}

@[simp] theorem tokensOf_cons (e : RecordEntry) :
    tokensOf (e :: items) = e.maxOutputTokens + tokensOf items := by
  simp [tokensOf]

@[simp] theorem costOf_cons (e : RecordEntry) :
    costOf (e :: items) = e.maxCostMicros + costOf items := by
  simp [costOf]

theorem checkReservations_of_valid (hlimits : limits.valid) {tokenSum costSum : Nat}
    {calls ids : List Id} (hvalid : ∀ e ∈ items, validRecord e)
    (hcalls : (items.map (·.callId)).Nodup) (hids : (items.map (·.reservationId)).Nodup)
    (hnew : ∀ e ∈ items, e.callId ∉ calls ∧ e.reservationId ∉ ids)
    (htokens : tokenSum + tokensOf items ≤ limits.maxOutputTokens)
    (hcost : costSum + costOf items ≤ limits.maxCostMicros) :
    checkReservations limits tokenSum costSum calls ids items = .ok () := by
  induction items generalizing tokenSum costSum calls ids with
  | nil => rfl
  | cons e items ih =>
    rw [tokensOf_cons] at htokens
    rw [costOf_cons] at hcost
    rw [List.map_cons, List.nodup_cons] at hcalls hids
    obtain ⟨hcall, hid⟩ := hnew e (List.mem_cons_self ..)
    obtain ⟨-, ⟨-, hmaxTokens⟩, hmaxCost⟩ := hlimits
    refine bind_eq_ok.2 ⟨(), rejectIf_of_not ?_, bind_eq_ok.2 ⟨(), rejectIf_of_not ?_, ?_⟩⟩
    · simp [hvalid e (List.mem_cons_self ..), hcall, hid]
    · unfold maxSafeInteger
      omega
    · apply ih (fun x hx => hvalid x (List.mem_cons_of_mem _ hx)) hcalls.2 hids.2
      · intro x hx
        obtain ⟨hxcall, hxid⟩ := hnew x (List.mem_cons_of_mem _ hx)
        refine ⟨?_, ?_⟩
        · rw [List.mem_cons, not_or]
          exact ⟨fun h => hcalls.1 (h ▸ List.mem_map_of_mem hx), hxcall⟩
        · rw [List.mem_cons, not_or]
          exact ⟨fun h => hids.1 (h ▸ List.mem_map_of_mem hx), hxid⟩
      · omega
      · omega

theorem validateFile_of_valid (hlimits : limits.valid) (h : ValidFile limits reservations) :
    validateFile ⟨1, limits, reservations⟩ limits = .ok ⟨1, limits, reservations⟩ := by
  have hfew := h.few
  refine bind_eq_ok.2 ⟨(), rejectIf_of_not ?_, bind_eq_ok.2 ⟨(), rejectIf_of_not ?_, ?_⟩⟩
  · simp [hlimits, hfew]
  · simp
  · refine bind_eq_ok.2 ⟨(), ?_, rfl⟩
    apply checkReservations_of_valid hlimits h.valid h.calls h.ids
    · simp
    · simpa using h.tokens
    · simpa using h.cost

-- ===== shapes

/-- What a disk can look like. -/
inductive Shape (limits : Limits) : Disk → Prop
  | fresh : Shape limits ⟨none, none⟩
  | torn : Shape limits ⟨some (stamp limits), none⟩
  | ready (reservations : List RecordEntry) (hne : reservations ≠ []) :
      Shape limits ⟨some (stamp limits), some ⟨1, limits, reservations⟩⟩

/-- The marker without its ledger. -/
def Torn (disk : Disk) : Prop :=
  disk.marker.isSome ∧ disk.ledger.isNone

theorem checkMarker_stamp (message : String) : checkMarker limits (stamp limits) message = .ok () :=
  rejectIf_of_not (by simp [stamp])

theorem read_of_torn : read limits ⟨some (stamp limits), none⟩ = fail .taskModelBudgetLedgerCorrupt
      "Previously initialized model budget ledger disappeared; never reset the consumed budget." := by
  unfold read
  simp [checkMarker_stamp, corruptIf, rejectIf, fail]

theorem read_of_shape (hlimits : limits.valid) (hshape : Shape limits disk)
    (hvalid : ValidFile limits disk.reservations) (htorn : ¬ Torn disk) :
    read limits disk = .ok ⟨1, limits, disk.reservations⟩ := by
  cases hshape with
  | fresh => simp [read, corruptIf, rejectIf, Disk.reservations]
  | torn => exact absurd ⟨rfl, rfl⟩ htorn
  | ready reservations _ =>
    have hfile := validateFile_of_valid hlimits hvalid
    simp only [Disk.reservations] at hfile
    simp [read, checkMarker_stamp, corruptIf, rejectIf, Disk.reservations, hfile]

theorem read_eq_ok (hlimits : limits.valid) (hshape : Shape limits disk)
    (hvalid : ValidFile limits disk.reservations) {file : BudgetFile}
    (h : read limits disk = .ok file) : ¬ Torn disk ∧ file = ⟨1, limits, disk.reservations⟩ := by
  by_cases htorn : Torn disk
  · obtain ⟨hmarker, hledger⟩ := htorn
    cases hshape with
    | fresh => cases hmarker
    | torn =>
      rw [read_of_torn] at h
      cases h
    | ready _ _ => cases hledger
  · rw [read_of_shape hlimits hshape hvalid htorn] at h
    exact ⟨htorn, (Except.ok.inj h).symm⟩

-- ===== a record

theorem unitLength_pos {text : String} (h : text ≠ "") : 1 ≤ Json.unitLength text := by
  unfold Json.unitLength
  cases hchars : text.toList with
  | nil => exact absurd (String.toList_injective hchars) h
  | cons c cs =>
    rw [List.flatMap_cons, List.length_append]
    have hunits : 1 ≤ (Json.codeUnits c).length := by
      unfold Json.codeUnits
      split <;> simp
    omega

theorem allowedInt_eq_some {value : Number} {low high n : Nat}
    (h : allowedInt value low high = some n) : low ≤ n ∧ n ≤ high := by
  unfold allowedInt at h
  split at h
  · next m hm =>
    split at h
    · next hle =>
      cases h
      refine ⟨?_, hle⟩
      cases value with
      | int k =>
        simp only [Number.safeFrom?] at hm
        split at hm
        · next hrange =>
          simp only [Option.some.injEq] at hm
          omega
        · cases hm
      | other => cases hm
    · cases h
  · cases h

theorem newEntry_eq_ok {input : ReserveInput} {id : Id} {entry : RecordEntry}
    (h : newEntry input id = .ok entry) :
    validRecord entry ∧ entry.reservationId = id ∧ entry.status = .reserved := by
  unfold newEntry at h
  split at h
  · next callId tokens cost hcall htokens hcost =>
    obtain ⟨_, hmodel, h⟩ := bind_eq_ok.1 h
    cases h
    have hmodel := rejectIf_eq_ok.1 hmodel
    rw [not_or, not_or, not_not] at hmodel
    obtain ⟨hblank, htrim, hlong⟩ := hmodel
    rw [htrim] at hblank
    exact ⟨⟨⟨unitLength_pos hblank, Nat.not_lt.1 hlong⟩, htrim, allowedInt_eq_some htokens,
      (allowedInt_eq_some hcost).2⟩, rfl, rfl⟩
  · cases h

-- ===== plans

def settle (item : RecordEntry) (outcome : Status) (record : RecordEntry) : RecordEntry :=
  if record = item then { record with status := outcome } else record

/-- A reservation that can be added. -/
structure Fresh (limits : Limits) (reservations : List RecordEntry) (e : RecordEntry) : Prop where
  valid : validRecord e
  status : e.status = .reserved
  call : e.callId ∉ reservations.map (·.callId)
  room : ¬ exhausted limits reservations e

variable {writes : List Write} {entries : List RecordEntry}

variable {e : RecordEntry}

theorem reserve_eq_ok (hlimits : limits.valid) (hshape : Shape limits disk)
    (hvalid : ValidFile limits disk.reservations) {input : ReserveInput} {id : Id}
    (h : reserve limits disk input id = .ok (writes, e)) :
    ¬ Torn disk ∧ Fresh limits disk.reservations e ∧ e.reservationId = id ∧ ((disk = ⟨none, none⟩
          ∧ writes = [.marker (stamp limits), .ledger ⟨1, limits, [e]⟩])
        ∨ (disk.marker = some (stamp limits)
          ∧ writes = [.ledger ⟨1, limits, disk.reservations ++ [e]⟩])) := by
  unfold reserve at h
  obtain ⟨entry, hentry, h⟩ := bind_eq_ok.1 h
  obtain ⟨file, hfile, h⟩ := bind_eq_ok.1 h
  obtain ⟨htorn, rfl⟩ := read_eq_ok hlimits hshape hvalid hfile
  obtain ⟨_, hcall, h⟩ := bind_eq_ok.1 h
  obtain ⟨_, hroom, h⟩ := bind_eq_ok.1 h
  obtain ⟨first, hfirst, h⟩ := bind_eq_ok.1 h
  cases h
  obtain ⟨hrecord, hid, hstatus⟩ := newEntry_eq_ok hentry
  refine ⟨htorn, ⟨hrecord, hstatus, ?_, rejectIf_eq_ok.1 hroom⟩, hid, ?_⟩
  · intro hmem
    obtain ⟨record, hin, heq⟩ := List.mem_map.1 hmem
    exact rejectIf_eq_ok.1 hcall ⟨record, hin, heq⟩
  · cases hshape with
    | fresh =>
      simp only [Disk.reservations, createMarker] at hfirst
      cases hfirst
      exact .inl ⟨rfl, rfl⟩
    | torn => exact absurd ⟨rfl, rfl⟩ htorn
    | ready reservations hne =>
      refine .inr ⟨rfl, ?_⟩
      have hlength : ¬ (reservations ++ [e]).length = 1 := by
        rw [List.length_append, List.length_singleton]
        have hpos := List.length_pos_of_ne_nil hne
        omega
      have hnone : createMarker limits ⟨some (stamp limits), some ⟨1, limits, reservations⟩⟩
          ⟨1, limits, reservations ++ [e]⟩ = .ok [] := if_neg hlength
      rw [show first = [] from Except.ok.inj (hfirst.symm.trans hnone)]
      rfl

theorem finalize_eq_ok (hlimits : limits.valid) (hshape : Shape limits disk)
    (hvalid : ValidFile limits disk.reservations) {input : FinalizeInput}
    (h : finalize limits disk input = .ok writes) :
    ∃ item ∈ disk.reservations, item.reservationId.val = input.reservationId
    ∧ item.callId.val = input.callId
    ∧ ((item.status = input.outcome ∧ writes = []) ∨ (item.status = .reserved ∧ writes = [.ledger
          ⟨1, limits, disk.reservations.map (settle item input.outcome)⟩])) := by
  unfold finalize at h
  obtain ⟨_, -, h⟩ := bind_eq_ok.1 h
  obtain ⟨file, hfile, h⟩ := bind_eq_ok.1 h
  obtain ⟨-, rfl⟩ := read_eq_ok hlimits hshape hvalid hfile
  split at h
  · cases h
  · next item hfind =>
    have hids := List.find?_some hfind
    simp only [Bool.and_eq_true, beq_iff_eq] at hids
    refine ⟨item, List.mem_of_find?_eq_some hfind, hids.1, hids.2, ?_⟩
    split at h
    · next hsame =>
      cases h
      exact .inl ⟨hsame, rfl⟩
    · obtain ⟨_, hopen, h⟩ := bind_eq_ok.1 h
      cases h
      exact .inr ⟨not_not.1 (rejectIf_eq_ok.1 hopen), rfl⟩

-- ===== effects

/-- What a turn does to the disk, and what it returns. -/
inductive Effect (limits : Limits) (m : Machine) (turn : Turn) :
    Disk → List RecordEntry → Prop
  | kept : Effect limits m turn m.disk []
  | torn (hfresh : m.disk = ⟨none, none⟩) (hcut : ¬ Spared limits m turn) :
      Effect limits m turn ⟨some (stamp limits), none⟩ []
  | reserved (hread : ¬ Torn m.disk) (e : RecordEntry) (hnew : Fresh limits m.disk.reservations e)
      (hid : turn.call.draws = [e.reservationId]) (returned : List RecordEntry)
      (hreturned : returned = [] ∨ returned = [e]) :
      Effect limits m turn
        ⟨some (stamp limits), some ⟨1, limits, m.disk.reservations ++ [e]⟩⟩ returned
  | settled (item : RecordEntry) (hitem : item ∈ m.disk.reservations)
      (hstatus : item.status = .reserved) (outcome : Status) :
      Effect limits m turn ⟨some (stamp limits),
        some ⟨1, limits, m.disk.reservations.map (settle item outcome)⟩⟩ []

variable {m m' : Machine} {turn : Turn}

theorem Shape.marker (hshape : Shape limits disk) (he : e ∈ disk.reservations) :
    disk.marker = some (stamp limits) := by
  cases hshape with
  | fresh => cases he
  | torn => rfl
  | ready _ _ => rfl

/-- A planned call takes one of the effects: as planned where it runs through,
and whatever a prefix of its writes makes where it stops. -/
theorem effect_of_plan (hlimits : limits.valid) (hshape : Shape limits m.disk)
    (hvalid : ValidFile limits m.disk.reservations)
    (h : turn.call.plan limits m.disk = .ok (writes, entries)) :
    (turn.stop = none → Effect limits m turn (m.disk.after writes) entries)
    ∧ ∀ count, turn.stop = some count →
        Effect limits m turn (m.disk.after (writes.take count)) [] := by
  obtain ⟨call, stop⟩ := turn
  cases call with
  | reserve input id =>
    obtain ⟨⟨writes', e⟩, hreserve, hplan⟩ := bind_eq_ok.1 h
    cases hplan
    obtain ⟨hread, hfresh, rfl, hwrites⟩ := reserve_eq_ok hlimits hshape hvalid hreserve
    rcases hwrites with ⟨hdisk, rfl⟩ | ⟨hmarker, rfl⟩
    · have hfirst : ∀ returned, returned = [] ∨ returned = [e] →
          Effect limits m ⟨.reserve input e.reservationId, stop⟩
            ⟨some (stamp limits), some ⟨1, limits, [e]⟩⟩ returned := by
        intro returned hreturned
        have heffect := @Effect.reserved limits m ⟨.reserve input e.reservationId, stop⟩ hread
          e hfresh rfl returned hreturned
        rwa [hdisk] at heffect
      refine ⟨fun _ => ?_, ?_⟩
      · rw [hdisk]
        exact hfirst _ (.inr rfl)
      · rintro count rfl
        match count with
        | 0 => exact Effect.kept
        | 1 =>
          rw [hdisk]
          refine Effect.torn hdisk ?_
          intro hspared
          exact hspared _ _ _ h rfl
        | n + 2 =>
          rw [hdisk, List.take_of_length_le (by simp)]
          exact hfirst _ (.inl rfl)
    · have hdisk : m.disk.after [.ledger ⟨1, limits, m.disk.reservations ++ [e]⟩]
          = ⟨some (stamp limits), some ⟨1, limits, m.disk.reservations ++ [e]⟩⟩ := by
        simp [Disk.after, Disk.write, hmarker]
      refine ⟨fun _ => ?_, ?_⟩
      · rw [hdisk]
        exact Effect.reserved hread e hfresh rfl _ (.inr rfl)
      · rintro count -
        cases count with
        | zero => exact Effect.kept
        | succ n =>
          rw [List.take_of_length_le (by simp), hdisk]
          exact Effect.reserved hread e hfresh rfl _ (.inl rfl)
  | finalize input =>
    obtain ⟨writes', hfinalize, hplan⟩ := bind_eq_ok.1 h
    cases hplan
    obtain ⟨item, hitem, -, -, hwrites⟩ := finalize_eq_ok hlimits hshape hvalid hfinalize
    have hmarker := hshape.marker hitem
    rcases hwrites with ⟨-, rfl⟩ | ⟨hstatus, rfl⟩
    · refine ⟨fun _ => Effect.kept, fun count _ => ?_⟩
      rw [List.take_nil]
      exact Effect.kept
    · have hdisk : m.disk.after [.ledger
            ⟨1, limits, m.disk.reservations.map (settle item input.outcome)⟩]
          = ⟨some (stamp limits),
              some ⟨1, limits, m.disk.reservations.map (settle item input.outcome)⟩⟩ := by
        simp [Disk.after, Disk.write, hmarker]
      refine ⟨fun _ => ?_, ?_⟩
      · rw [hdisk]
        exact Effect.settled item hitem hstatus _
      · rintro count -
        cases count with
        | zero => exact Effect.kept
        | succ n =>
          rw [List.take_of_length_le (by simp), hdisk]
          exact Effect.settled item hitem hstatus _
  | inspect =>
    obtain ⟨_, -, hplan⟩ := bind_eq_ok.1 h
    cases hplan
    refine ⟨fun _ => Effect.kept, fun count _ => ?_⟩
    rw [List.take_nil]
    exact Effect.kept

/-- One turn of the machine, by the effect of its plan. -/
theorem effect_of_step (hlimits : limits.valid) (hshape : Shape limits m.disk)
    (hvalid : ValidFile limits m.disk.reservations) (h : step limits m turn = some m') :
    (∀ drawn ∈ turn.call.draws, drawn ∉ m.drawn)
    ∧ ∃ disk returned, Effect limits m turn disk returned
        ∧ m' = ⟨disk, m.drawn ++ turn.call.draws, m.returned ++ returned⟩ := by
  unfold step at h
  split at h
  · next hdrawn =>
    refine ⟨hdrawn, ?_⟩
    obtain rfl := Option.some.inj h
    unfold Machine.after
    cases hplan : turn.call.plan limits m.disk with
    | error e => exact ⟨m.disk, [], Effect.kept, by simp⟩
    | ok plan =>
      obtain ⟨writes, entries⟩ := plan
      obtain ⟨hdone, hcut⟩ := effect_of_plan hlimits hshape hvalid hplan
      cases hstop : turn.stop with
      | none => exact ⟨_, _, hdone hstop, by simp⟩
      | some count => exact ⟨_, _, hcut count hstop, by simp⟩
  · cases h

-- ===== invariant

def asReserved (e : RecordEntry) : RecordEntry :=
  { e with status := .reserved }

theorem asReserved_eq (h : e.status = .reserved) : asReserved e = e := by
  cases e
  cases h
  rfl

theorem asReserved_settle (item : RecordEntry) (outcome : Status) (r : RecordEntry) :
    asReserved (settle item outcome r) = asReserved r := by
  unfold settle
  split
  · rfl
  · rfl

theorem map_settle {β : Type} {f : RecordEntry → β} (hf : ∀ r, f r = f (asReserved r))
    (item : RecordEntry) (outcome : Status) :
    (items.map (settle item outcome)).map f = items.map f := by
  rw [List.map_map]
  apply List.map_congr_left
  intro r _
  rw [Function.comp_apply, hf, asReserved_settle, ← hf]

theorem ValidFile.settle (h : ValidFile limits items) (item : RecordEntry) (outcome : Status) :
    ValidFile limits (items.map (settle item outcome)) where
  few := by
    rw [List.length_map]
    exact h.few
  valid := by
    intro e he
    obtain ⟨r, hr, rfl⟩ := List.mem_map.1 he
    have hsame : validRecord (asReserved (ModelBudget.settle item outcome r)) := by
      rw [asReserved_settle]
      exact h.valid r hr
    exact hsame
  calls := by
    rw [map_settle fun _ => rfl]
    exact h.calls
  ids := by
    rw [map_settle fun _ => rfl]
    exact h.ids
  tokens := by
    unfold tokensOf
    rw [map_settle fun _ => rfl]
    exact h.tokens
  cost := by
    unfold costOf
    rw [map_settle fun _ => rfl]
    exact h.cost

theorem ValidFile.append (h : ValidFile limits items) (hnew : Fresh limits items e)
    (hid : e.reservationId ∉ items.map (·.reservationId)) : ValidFile limits (items ++ [e]) := by
  obtain ⟨hvalid, -, hcall, hroom⟩ := hnew
  unfold exhausted at hroom
  rw [not_or, not_or, Nat.not_le, Nat.not_lt, Nat.not_lt] at hroom
  obtain ⟨hfew, htokens, hcost⟩ := hroom
  refine ⟨?_, ?_, ?_, ?_, ?_, ?_⟩
  · rw [List.length_append, List.length_singleton]
    omega
  · intro x hx
    rcases List.mem_append.1 hx with hx | hx
    · exact h.valid x hx
    · rw [List.mem_singleton.1 hx]
      exact hvalid
  · rw [List.map_append, List.map_singleton, ← List.concat_eq_append]
    exact List.Nodup.concat hcall h.calls
  · rw [List.map_append, List.map_singleton, ← List.concat_eq_append]
    exact List.Nodup.concat hid h.ids
  · simpa [tokensOf] using htokens
  · simpa [costOf] using hcost

/-- What every turn keeps: the disk is readable or torn, its records are
under drawn identifiers, and what was returned is on it. -/
structure Sound (limits : Limits) (m : Machine) : Prop where
  shape : Shape limits m.disk
  valid : ValidFile limits m.disk.reservations
  drawn : ∀ e ∈ m.disk.reservations, e.reservationId ∈ m.drawn
  returned : List.Sublist m.returned (m.disk.reservations.map asReserved)

theorem Sound.start : Sound limits start where
  shape := Shape.fresh
  valid := ⟨Nat.zero_le _, fun _ h => (nomatch h), List.nodup_nil, List.nodup_nil,
    Nat.zero_le _, Nat.zero_le _⟩
  drawn := fun _ h => nomatch h
  returned := List.Sublist.refl _

/-- One turn, by its effect. -/
theorem Sound.step (hlimits : limits.valid) (h : Sound limits m)
    (hstep : step limits m turn = some m') : Sound limits m' := by
  obtain ⟨hdrawn, disk, returned, heffect, rfl⟩ :=
    effect_of_step hlimits h.shape h.valid hstep
  have hold : ∀ e ∈ m.disk.reservations, e.reservationId ∈ m.drawn ++ turn.call.draws :=
    fun e he => List.mem_append_left _ (h.drawn e he)
  cases heffect with
  | kept =>
    refine ⟨h.shape, h.valid, hold, ?_⟩
    rw [List.append_nil]
    exact h.returned
  | torn hfresh _ =>
    have hreturned := h.returned
    rw [hfresh] at hreturned
    refine ⟨Shape.torn, Sound.start.valid, fun _ he => (nomatch he), ?_⟩
    rw [List.append_nil]
    exact hreturned
  | reserved _ e hnew hid returned hreturned =>
    have hunused : e.reservationId ∉ m.disk.reservations.map (·.reservationId) := by
      intro hmem
      obtain ⟨r, hr, heq⟩ := List.mem_map.1 hmem
      apply hdrawn e.reservationId (by rw [hid]; exact List.mem_singleton.2 rfl)
      rw [← heq]
      exact h.drawn r hr
    refine ⟨Shape.ready _ (by simp), h.valid.append hnew hunused, ?_, ?_⟩
    · intro x hx
      rcases List.mem_append.1 hx with hx | hx
      · exact hold x hx
      · rw [List.mem_singleton.1 hx, hid]
        exact List.mem_append_right _ (List.mem_singleton.2 rfl)
    · show List.Sublist _ ((m.disk.reservations ++ [e]).map asReserved)
      rw [List.map_append, List.map_singleton, asReserved_eq hnew.status]
      apply h.returned.append
      rcases hreturned with rfl | rfl
      · exact List.nil_sublist _
      · exact List.Sublist.refl _
  | settled item hitem hstatus outcome =>
    refine ⟨Shape.ready _ ?_, h.valid.settle item outcome, ?_, ?_⟩
    · intro hnil
      rw [List.map_eq_nil_iff] at hnil
      rw [hnil] at hitem
      cases hitem
    · intro x hx
      obtain ⟨r, hr, rfl⟩ := List.mem_map.1 hx
      have hsame : (settle item outcome r).reservationId = r.reservationId :=
        show (asReserved (settle item outcome r)).reservationId = (asReserved r).reservationId
          from congrArg _ (asReserved_settle item outcome r)
      rw [hsame]
      exact hold r hr
    · rw [List.append_nil]
      show List.Sublist _ ((m.disk.reservations.map (settle item outcome)).map asReserved)
      rw [map_settle fun _ => rfl]
      exact h.returned

variable {turns : List Turn}

/-- The reservations of every run are within the limits. -/
theorem sound_of_run (hlimits : limits.valid) (h : Run (stepsOf (step limits)) start turns m) :
    Sound limits m :=
  h.invariant Sound.start fun hs hstep => hs.step hlimits hstep

theorem outcome_kept (hlimits : limits.valid) (hsound : Sound limits m)
    (h : Run (stepsOf (step limits)) m turns m') (he : e ∈ m.disk.reservations)
    (hstatus : e.status ≠ .reserved) : e ∈ m'.disk.reservations := by
  refine (h.invariant (I := fun x => Sound limits x ∧ e ∈ x.disk.reservations) ⟨hsound, he⟩ ?_).2
  rintro s t turn ⟨hs, hmem⟩ hstep
  refine ⟨hs.step hlimits hstep, ?_⟩
  obtain ⟨-, disk, returned, heffect, rfl⟩ := effect_of_step hlimits hs.shape hs.valid hstep
  cases heffect with
  | kept => exact hmem
  | torn hfresh _ =>
    rw [hfresh] at hmem
    cases hmem
  | reserved _ _ _ _ _ _ => exact List.mem_append_left _ hmem
  | settled item _ hitem outcome =>
    refine List.mem_map.2 ⟨e, hmem, if_neg ?_⟩
    rintro rfl
    exact hstatus hitem

theorem finalize_settles (hlimits : limits.valid) (hsound : Sound limits m)
    {input : FinalizeInput} (h : finalize limits m.disk input = .ok writes) :
    ∃ e ∈ (m.disk.after writes).reservations, e.reservationId.val = input.reservationId
    ∧ e.callId.val = input.callId ∧ e.status = input.outcome := by
  obtain ⟨item, hitem, hid, hcall, hwrites⟩ :=
    finalize_eq_ok hlimits hsound.shape hsound.valid h
  rcases hwrites with ⟨hsame, rfl⟩ | ⟨-, rfl⟩
  · exact ⟨item, hitem, hid, hcall, hsame⟩
  · refine ⟨{ item with status := input.outcome }, ?_, hid, hcall, rfl⟩
    exact List.mem_map.2 ⟨item, hitem, if_pos rfl⟩

-- ===== availability

/-- The reservation fits what the disk leaves of the budget. -/
def Fits (limits : Limits) (disk : Disk) (input : ReserveInput) (id : Id) : Prop :=
  ∃ entry, newEntry input id = .ok entry
    ∧ (∀ record ∈ disk.reservations, record.callId ≠ entry.callId)
    ∧ ¬ exhausted limits disk.reservations entry

/-- Every reservation that fits succeeds. -/
def Available (limits : Limits) (disk : Disk) : Prop :=
  ∀ input id, Fits limits disk input id → ∃ plan, reserve limits disk input id = .ok plan

theorem available_of_not_torn (hlimits : limits.valid) (hshape : Shape limits disk)
    (hvalid : ValidFile limits disk.reservations) (htorn : ¬ Torn disk) :
    Available limits disk := by
  rintro input id ⟨entry, hentry, hcall, hroom⟩
  have hread := read_of_shape hlimits hshape hvalid htorn
  have hmarker : ∃ first, createMarker limits disk
      ⟨1, limits, disk.reservations ++ [entry]⟩ = .ok first := by
    unfold createMarker
    split
    · cases hshape with
      | fresh => exact ⟨_, rfl⟩
      | torn => exact absurd ⟨rfl, rfl⟩ htorn
      | ready _ _ => exact ⟨[], by simp [checkMarker_stamp]⟩
    · exact ⟨[], rfl⟩
  obtain ⟨first, hfirst⟩ := hmarker
  refine ⟨(first ++ [.ledger ⟨1, limits, disk.reservations ++ [entry]⟩], entry), ?_⟩
  unfold reserve
  refine bind_eq_ok.2 ⟨entry, hentry, ?_⟩
  refine bind_eq_ok.2 ⟨_, hread, ?_⟩
  refine bind_eq_ok.2 ⟨(), rejectIf_of_not ?_, bind_eq_ok.2 ⟨(), rejectIf_of_not hroom, ?_⟩⟩
  · rintro ⟨record, hrecord, heq⟩
    exact hcall record hrecord heq
  · exact bind_eq_ok.2 ⟨first, hfirst, rfl⟩

def smallest : ReserveInput :=
  ⟨"00000000-0000-0000-0000-000000000000", "m", .int 64, .int 0⟩

def zeroId : Id := ⟨"00000000-0000-0000-0000-000000000000", by decide +kernel⟩

theorem not_available_of_torn (hlimits : limits.valid) (hshape : Shape limits disk)
    (htorn : Torn disk) : ¬ Available limits disk := by
  obtain ⟨⟨hcalls, -⟩, ⟨htokens, -⟩, -⟩ := hlimits
  have hentry : newEntry smallest zeroId
      = .ok ⟨zeroId, zeroId, "m", 64, 0, .reserved⟩ := by decide +kernel
  cases hshape with
  | fresh => cases htorn.1
  | torn =>
    intro havailable
    obtain ⟨plan, hplan⟩ := havailable smallest zeroId
      ⟨_, hentry, fun _ h => (nomatch h), by
        simp [exhausted, Disk.reservations, tokensOf, costOf]
        omega⟩
    obtain ⟨_, -, hplan⟩ := bind_eq_ok.1 hplan
    obtain ⟨_, hread, -⟩ := bind_eq_ok.1 hplan
    rw [read_of_torn] at hread
    cases hread
  | ready _ _ => cases htorn.2

theorem torn_step (hlimits : limits.valid) (hsound : Sound limits m) (htorn : Torn m.disk)
    (hstep : step limits m turn = some m') : Torn m'.disk := by
  obtain ⟨-, disk, returned, heffect, rfl⟩ :=
    effect_of_step hlimits hsound.shape hsound.valid hstep
  cases heffect with
  | kept => exact htorn
  | torn _ _ => exact ⟨rfl, rfl⟩
  | reserved hread _ _ _ _ _ => exact absurd htorn hread
  | settled item hitem _ _ =>
    unfold Disk.reservations at hitem
    rw [Option.isNone_iff_eq_none.1 htorn.2] at hitem
    cases hitem

theorem fresh_of_plan (hlimits : limits.valid) (hsound : Sound limits m) {marker : Marker}
    {file : BudgetFile}
    (h : turn.call.plan limits m.disk = .ok ([.marker marker, .ledger file], entries)) :
    m.disk = ⟨none, none⟩ := by
  obtain ⟨call, stop⟩ := turn
  cases call with
  | reserve input id =>
    obtain ⟨⟨writes', e⟩, hreserve, hplan⟩ := bind_eq_ok.1 h
    cases hplan
    obtain ⟨-, -, -, ⟨hdisk, -⟩ | ⟨-, hwrites⟩⟩ :=
      reserve_eq_ok hlimits hsound.shape hsound.valid hreserve
    · exact hdisk
    · cases hwrites
  | finalize input =>
    obtain ⟨writes', hfinalize, hplan⟩ := bind_eq_ok.1 h
    cases hplan
    obtain ⟨_, _, -, -, ⟨-, hwrites⟩ | ⟨-, hwrites⟩⟩ :=
      finalize_eq_ok hlimits hsound.shape hsound.valid hfinalize
    · cases hwrites
    · cases hwrites
  | inspect =>
    obtain ⟨_, -, hplan⟩ := bind_eq_ok.1 h
    cases hplan

theorem torn_of_cut (hlimits : limits.valid) (hsound : Sound limits m)
    (hcut : ¬ Spared limits m turn) (hstep : step limits m turn = some m') : Torn m'.disk := by
  unfold Spared at hcut
  push Not at hcut
  obtain ⟨marker, file, entries, hplan, hstop⟩ := hcut
  have hdisk := fresh_of_plan hlimits hsound hplan
  unfold step at hstep
  split at hstep
  · obtain rfl := Option.some.inj hstep
    unfold Machine.after
    simp only [hplan, hstop]
    rw [hdisk]
    exact ⟨rfl, rfl⟩
  · cases hstep

theorem not_torn_iff (hlimits : limits.valid) (h : Run (stepsOf (step limits)) start turns m) :
    ¬ Torn m.disk ↔ Run (Where (stepsOf (step limits)) (Spared limits)) start turns m := by
  constructor
  · intro htorn
    induction h with
    | nil => exact Run.nil
    | @snoc turns s t turn hrun hstep ih =>
      have hsound := sound_of_run hlimits hrun
      have hbefore : ¬ Torn s.disk := fun h => htorn (torn_step hlimits hsound h hstep)
      refine Run.snoc (ih hbefore) ⟨hstep, ?_⟩
      by_contra hcut
      exact htorn (torn_of_cut hlimits hsound hcut hstep)
  · intro hspared
    refine (hspared.invariant (I := fun x => Sound limits x ∧ ¬ Torn x.disk)
      ⟨Sound.start, fun h => by cases h.1⟩ ?_).2
    rintro s t turn ⟨hsound, hbefore⟩ ⟨hstep, hturn⟩
    refine ⟨hsound.step hlimits hstep, ?_⟩
    obtain ⟨-, disk, returned, heffect, rfl⟩ :=
      effect_of_step hlimits hsound.shape hsound.valid hstep
    cases heffect with
    | kept => exact hbefore
    | torn _ hcut => exact absurd hturn hcut
    | reserved _ _ _ _ _ _ => exact fun h => by cases h.2
    | settled _ _ _ _ => exact fun h => by cases h.2

end

-- ===== the runs

/-- Every run, whatever is cut off: what calls have returned stays within
the limits, under one call identifier each; an outcome stays as it is; and
every reservation that fits succeeds exactly if no call was cut off between
the marker and the first ledger. -/
theorem budget_ledger_sound (profile : Profile) (turns : List Turn) (m : Machine)
    (h : Run (stepsOf (step profile.val)) start turns m) :
    (m.returned.length ≤ profile.val.maxCalls ∧ tokensOf m.returned ≤ profile.val.maxOutputTokens
      ∧ costOf m.returned ≤ profile.val.maxCostMicros) ∧ (m.returned.map (·.callId)).Nodup
    ∧ (∀ input writes, finalize profile.val m.disk input = .ok writes →
        ∃ e ∈ (m.disk.after writes).reservations, e.reservationId.val = input.reservationId
          ∧ e.callId.val = input.callId ∧ e.status = input.outcome)
    ∧ (∀ e ∈ m.disk.reservations, e.status ≠ .reserved → ∀ turns' m',
        Run (stepsOf (step profile.val)) m turns' m' → e ∈ m'.disk.reservations)
    ∧ (Available profile.val m.disk
        ↔ Run (Where (stepsOf (step profile.val)) (Spared profile.val)) start turns m) := by
  obtain ⟨limits, hlimits⟩ := profile
  have hsound := sound_of_run hlimits h
  have hvalid := hsound.valid
  have hreturned := hsound.returned
  refine ⟨⟨?_, ?_, ?_⟩, ?_, fun _ _ hfinalize => finalize_settles hlimits hsound hfinalize,
    fun e he hstatus _ _ hrun => outcome_kept hlimits hsound hrun he hstatus, ?_⟩
  · have hle := hreturned.length_le
    rw [List.length_map] at hle
    exact Nat.le_trans hle hvalid.few
  · have hle := (hreturned.map (·.maxOutputTokens)).sum_le_sum fun _ _ => Nat.zero_le _
    rw [List.map_map] at hle
    exact Nat.le_trans hle hvalid.tokens
  · have hle := (hreturned.map (·.maxCostMicros)).sum_le_sum fun _ _ => Nat.zero_le _
    rw [List.map_map] at hle
    exact Nat.le_trans hle hvalid.cost
  · have hsub := hreturned.map (·.callId)
    rw [List.map_map] at hsub
    exact hvalid.calls.sublist hsub
  · rw [← not_torn_iff hlimits h]
    constructor
    · intro havailable htorn
      exact not_available_of_torn hlimits hsound.shape htorn havailable
    · exact available_of_not_torn hlimits hsound.shape hvalid

-- ===== samples

def sampleProfile : Profile := ⟨⟨2, 128, 0⟩, by decide⟩

def sampleEntry : RecordEntry := ⟨zeroId, zeroId, "m", 64, 0, .reserved⟩

theorem plan_sample : Call.plan sampleProfile.val start.disk (.reserve smallest zeroId)
    = .ok ([.marker (stamp sampleProfile.val), .ledger ⟨1, sampleProfile.val, [sampleEntry]⟩],
        [sampleEntry]) := by
  have hentry : newEntry smallest zeroId = .ok sampleEntry := by decide +kernel
  refine bind_eq_ok.2 ⟨(_, sampleEntry), ?_, rfl⟩
  refine bind_eq_ok.2 ⟨sampleEntry, hentry, ?_⟩
  rfl

theorem step_sample (stop : Option Nat) :
    step sampleProfile.val start ⟨.reserve smallest zeroId, stop⟩
    = some (start.after sampleProfile.val ⟨.reserve smallest zeroId, stop⟩) :=
  if_pos fun _ _ h => nomatch h

theorem run_sample (stop : Option Nat) : Run (stepsOf (step sampleProfile.val)) start
    ([] ++ [⟨.reserve smallest zeroId, stop⟩])
    (start.after sampleProfile.val ⟨.reserve smallest zeroId, stop⟩) :=
  Run.snoc Run.nil (step_sample stop)

/-- After a completed first reservation every other that fits succeeds. -/
theorem budget_ledger_sound_sample : Available sampleProfile.val
    (start.after sampleProfile.val ⟨.reserve smallest zeroId, none⟩).disk := by
  apply (budget_ledger_sound sampleProfile _ _ (run_sample none)).2.2.2.2.2
  exact Run.snoc Run.nil ⟨step_sample none, fun _ _ _ _ h => nomatch h⟩

/-- Cut off after the marker, the first reservation leaves a disk without
any reservation, on which none is possible. -/
theorem crash_after_marker : ∃ m,
    Run (stepsOf (step sampleProfile.val)) start ([] ++ [⟨.reserve smallest zeroId, some 1⟩]) m
    ∧ m.disk.reservations = [] ∧ (∃ input id, Fits sampleProfile.val m.disk input id)
    ∧ ∀ input id plan, reserve sampleProfile.val m.disk input id ≠ .ok plan := by
  have hdisk : (start.after sampleProfile.val ⟨.reserve smallest zeroId, some 1⟩).disk
      = ⟨some (stamp sampleProfile.val), none⟩ := by
    unfold Machine.after
    rw [plan_sample]
    rfl
  refine ⟨_, run_sample (some 1), ?_, ⟨smallest, zeroId, sampleEntry, by decide +kernel, ?_, ?_⟩,
    ?_⟩
  · rw [hdisk]
    rfl
  · rw [hdisk]
    exact fun _ h => nomatch h
  · rw [hdisk]
    decide
  · intro input id plan hplan
    rw [hdisk] at hplan
    obtain ⟨_, -, hplan⟩ := bind_eq_ok.1 hplan
    obtain ⟨_, hread, -⟩ := bind_eq_ok.1 hplan
    rw [read_of_torn] at hread
    cases hread

end OperatorRuntime.ModelBudget
