/-
When the evaluation of a receipt verifies an outcome. `Confirmed` is the
proof a contract asks for; `WellFormed` is what is asked of the receipt
besides. A receipt whose dispatch is no time at all is not compared with its
observation, so the equivalence is about receipts that have one.
-/
import OperatorRuntime.Lib.Keyed
import OperatorRuntime.Lib.Passes
import OperatorRuntime.Outcome.OutcomeContract

namespace OperatorRuntime.Outcome

open Lib

variable {platform : Platform} {contract : OutcomeContract}

-- ===== values

variable {value : Value}

theorem strictEq_str {s : String} : value.strictEq (.str s) = true ↔ value = .str s := by
  cases value with
  | str text => simp [Value.strictEq]
  | undefined | null | bool | int | arr | obj | other => simp [Value.strictEq]

theorem strictEq_int {n : Int} : value.strictEq (.int n) = true ↔ value = .int n := by
  cases value with
  | int m => simp [Value.strictEq]
  | undefined | null | bool | str | arr | obj | other => simp [Value.strictEq]

theorem strictEq_bool {b : Bool} : value.strictEq (.bool b) = true ↔ value = .bool b := by
  cases value with
  | bool c => simp [Value.strictEq]
  | undefined | null | int | str | arr | obj | other => simp [Value.strictEq]

theorem generation?_val (g : PosSafe) : generation? (.int g.val) = some g := by
  have hrange : 1 ≤ ((g.val : Int)).toNat ∧ ((g.val : Int)).toNat ≤ maxSafeInteger := by
    rw [Int.toNat_natCast]
    exact g.property
  rw [generation?, Number.posSafe?, dif_pos hrange]
  rfl

theorem exactPlainRecord_nodup {input : Value} {fields : List String} {code : ErrorCode} {own : Fields}
    (hfields : fields.Nodup) (h : exactPlainRecord input fields code = .ok own) :
    (own.map Prod.fst).Nodup := by
  unfold exactPlainRecord at h
  split at h
  · split at h
    · cases h
    · next hexact =>
      cases h
      simp only [not_or, not_exists, not_and, not_not] at hexact
      obtain ⟨hlength, -, hall⟩ := hexact
      have hsub : fields.Subperm (own.map Prod.fst) := List.subperm_of_subset hfields hall
      have hle : (own.map Prod.fst).length ≤ fields.length := by
        rw [List.length_map, hlength]
      exact (hsub.perm_of_length_le hle).nodup_iff.1 hfields
  · cases h

theorem get_of_mem {own : Fields} (h : (own.map Prod.fst).Nodup) {field : String × Value}
    (hfield : field ∈ own) : own.get field.1 = field.2 := by
  rw [Fields.get, (find?_key_eq_some h).2 ⟨hfield, rfl⟩]
  rfl

-- ===== checks

theorem normalizeChecks_eq_ok {sorted : List OutcomeCheck} :
    normalizeChecks platform value contract = .ok sorted
    ↔ ∃ ref text items checks, value = .arr ref text items ∧ 1 ≤ items.length
      ∧ items.length ≤ 128 ∧ items.mapM (readCheck contract) = .ok checks
      ∧ (checks.map OutcomeCheck.expectationId).Nodup ∧ sorted = checks.insertionSort fun a b =>
        platform.localeCompare a.expectationId.val b.expectationId.val ≤ 0 := by
  constructor
  · intro h
    simp only [normalizeChecks, bind_eq_ok, rejectIf_eq_ok, not_not] at h
    obtain ⟨items, hitems, checks, hchecks, -, hnodup, h⟩ := h
    unfold exactArray at hitems
    split at hitems
    · next ref text own =>
      split at hitems
      · cases hitems
      · next hlength =>
        cases hitems
        cases h
        exact ⟨ref, text, items, checks, rfl, by omega, by omega, hchecks, hnodup, rfl⟩
    · cases hitems
  · rintro ⟨ref, text, items, checks, rfl, hlow, hhigh, hchecks, hnodup, rfl⟩
    have hlength : ¬ (items.length < 1 ∨ 128 < items.length) := by omega
    simp only [normalizeChecks, exactArray, if_neg hlength, ok_bind, hchecks]
    rw [rejectIf_of_not (by simpa using hnodup)]
    rfl

theorem statusOf_eq_some {checks : List OutcomeCheck} {expectation : OutcomeExpectation}
    {status : CheckStatus} (h : statusOf checks expectation = some status) :
    ∃ check ∈ checks, check.expectationId = expectation.id ∧ check.status = status := by
  obtain ⟨check, hfind, hstatus⟩ := Option.map_eq_some_iff.1 h
  have hid := List.find?_some hfind
  exact ⟨check, List.mem_of_find?_eq_some hfind, beq_iff_eq.1 hid, hstatus⟩

theorem deriveDisposition_eq_verified {checks : List OutcomeCheck} :
    deriveDisposition contract checks = .verified
    ↔ ∀ expectation ∈ contract.expectations, statusOf checks expectation = some .pass := by
  unfold deriveDisposition
  dsimp only
  constructor
  · intro h expectation hexpectation
    split at h
    · cases h
    · next hestablished =>
      split at h
      · cases h
      · next hmet =>
        split at h
        · cases h
        · next hoptional =>
          by_cases hrequired : expectation.required = true
          · have hmem := List.mem_filter.2 ⟨hexpectation, hrequired⟩
            cases hstatus : statusOf checks expectation with
            | none => exact absurd ⟨expectation, hmem, .inl hstatus⟩ hestablished
            | some status =>
              cases status with
              | pass => rfl
              | fail => exact absurd ⟨expectation, hmem, hstatus⟩ hmet
              | inconclusive =>
                exact absurd ⟨expectation, hmem, .inr hstatus⟩ hestablished
          · by_contra hnot
            refine hoptional ⟨expectation, List.mem_filter.2 ⟨hexpectation, ?_⟩, hnot⟩
            simpa using hrequired
  · intro h
    have hall : ∀ p : OutcomeExpectation → Bool, ∀ expectation ∈ contract.expectations.filter p,
        statusOf checks expectation = some .pass :=
      fun p expectation hexpectation => h expectation (List.mem_of_mem_filter hexpectation)
    rw [if_neg, if_neg, if_neg]
    · rintro ⟨expectation, hexpectation, hnot⟩
      exact hnot (hall _ expectation hexpectation)
    · rintro ⟨expectation, hexpectation, hfail⟩
      rw [hall _ expectation hexpectation] at hfail
      cases hfail
    · rintro ⟨expectation, hexpectation, hnone | hinconclusive⟩
      · rw [hall _ expectation hexpectation] at hnone
        cases hnone
      · rw [hall _ expectation hexpectation] at hinconclusive
        cases hinconclusive

theorem statusOf_pass {checks : List OutcomeCheck} (hpass : ∀ check ∈ checks, check.status = .pass)
    {expectation : OutcomeExpectation}
    (h : ∃ check ∈ checks, check.expectationId = expectation.id) :
    statusOf checks expectation = some .pass := by
  obtain ⟨check, hcheck, hid⟩ := h
  cases hfind : checks.find? fun check => check.expectationId == expectation.id with
  | none =>
    have hnot := List.find?_eq_none.1 hfind check hcheck
    rw [hid, beq_self_eq_true] at hnot
    exact absurd rfl hnot
  | some found =>
    rw [statusOf, hfind, Option.map_some, hpass found (List.mem_of_find?_eq_some hfind)]

theorem claimedDisposition_verified {receipt : Receipt} :
    claimedDisposition receipt = some .verified ↔ receipt.disposition = .str "VERIFIED" := by
  constructor
  · intro h
    unfold claimedDisposition at h
    split at h
    · next text hdisposition =>
      have htext := List.find?_some h
      rw [hdisposition, ← beq_iff_eq.1 htext]
      rfl
    · cases h
  · intro h
    rw [claimedDisposition, h]
    decide

-- ===== the evaluation

/-- A value that reads as a text of a pattern. -/
def ReadsAs (pattern : String → Bool) (value : Value) : Prop :=
  ∃ text, value.orEmpty.text? = some text ∧ pattern text = true

/-- A value that `Date.parse` takes for a time. -/
def ParsesTo (platform : Platform) (value : Value) (at' : Instant) : Prop :=
  ∃ text, value.text? = some text ∧ platform.dateParse text = some at'

/-- Each expectation of a contract has a check, none has two, and all pass. -/
structure Covered (contract : OutcomeContract) (value : Value) : Prop where
  checks : ∃ ref text items checks, value = .arr ref text items
    ∧ items.mapM (readCheck contract) = .ok checks
    ∧ (checks.map OutcomeCheck.expectationId).Nodup
    ∧ (∀ check ∈ checks, check.status = .pass)
    ∧ ∀ expectation ∈ contract.expectations, ∃ check ∈ checks, check.expectationId = expectation.id

/-- The proof a contract asks of a receipt. -/
structure Confirmed (platform : Platform) (contract : OutcomeContract) (raw : Fields)
    (receipt : Receipt) (now : Instant) : Prop where
  signed : ∃ signature payload, receipt.signature = .str signature
    ∧ canonicalText (raw.filter fun field => field.1 != "signature") = some payload
    ∧ platform.verifySignature payload signature = true
  contractDigest : receipt.contractDigest = .str (contractDigest platform contract).val
  actionId : receipt.actionId = .str contract.actionId.val
  actionDigest : receipt.actionDigest = .str contract.actionDigest.val
  planId : receipt.planId = .str contract.planId.val
  planGeneration : receipt.planGeneration = .int contract.planGeneration.val
  actionGeneration : receipt.actionGeneration = .int contract.actionGeneration.val
  principalId : receipt.principalId = .str contract.principalId.val
  deviceId : receipt.deviceId = .str contract.deviceId.val
  observer : receipt.providerId.strictEq receipt.observerId = false
  timely : ∃ observedAt dispatchedAt, ParsesTo platform receipt.observedAt observedAt
    ∧ ParsesTo platform receipt.dispatchedAt dispatchedAt ∧ dispatchedAt.val ≤ observedAt.val
    ∧ contract.issuedAt.val ≤ observedAt.val ∧ observedAt.val ≤ contract.expiresAt.val
    ∧ 0 ≤ now.val - observedAt.val ∧ now.val - observedAt.val ≤ contract.maxObservationAgeMs
  covered : Covered contract receipt.checks
  claimed : receipt.disposition = .str "VERIFIED"

/-- What is asked of a receipt besides. -/
structure WellFormed (receipt : Receipt) : Prop where
  schemaVersion : receipt.schemaVersion = .int 1
  observerIndependent : receipt.observerIndependent = .bool true
  receiptId : ReadsAs isIdText receipt.receiptId
  nonce : ReadsAs isIdText receipt.nonce
  providerId : ReadsAs isIdText receipt.providerId
  observerId : ReadsAs isIdText receipt.observerId
  providerPostStateDigest : ReadsAs isDigestText receipt.providerPostStateDigest
  signature : ∀ text, receipt.signature = .str text →
    32 ≤ Json.unitLength text ∧ Json.unitLength text ≤ 4096
  checks : ∀ ref text items, receipt.checks = .arr ref text items →
    1 ≤ items.length ∧ items.length ≤ 128

variable {receipt : Receipt} {raw : Fields} {now : Instant}

theorem bindingsMatch_iff : bindingsMatch platform contract receipt = true
    ↔ receipt.schemaVersion = .int 1
      ∧ receipt.contractDigest = .str (contractDigest platform contract).val
      ∧ receipt.actionId = .str contract.actionId.val
      ∧ receipt.actionDigest = .str contract.actionDigest.val
      ∧ receipt.planId = .str contract.planId.val
      ∧ receipt.planGeneration = .int contract.planGeneration.val
      ∧ receipt.actionGeneration = .int contract.actionGeneration.val
      ∧ receipt.principalId = .str contract.principalId.val
      ∧ receipt.deviceId = .str contract.deviceId.val ∧ receipt.observerIndependent = .bool true
      ∧ receipt.providerId.strictEq receipt.observerId = false := by
  simp only [bindingsMatch, Bool.and_eq_true, strictEq_str, strictEq_int, strictEq_bool,
    Bool.not_eq_true', and_assoc]

theorem schemaValid_iff : schemaValid receipt = .ok true
    ↔ (ReadsAs isIdText receipt.receiptId ∧ ReadsAs isIdText receipt.nonce
      ∧ ReadsAs isIdText receipt.providerId ∧ ReadsAs isIdText receipt.observerId
      ∧ ReadsAs isDigestText receipt.contractDigest ∧ ReadsAs isDigestText receipt.actionDigest)
      ∧ (claimedDisposition receipt).isSome = true
      ∧ (generation? receipt.planGeneration).isSome = true
      ∧ (generation? receipt.actionGeneration).isSome = true := by
  have htexts : testAll [(isIdText, receipt.receiptId), (isIdText, receipt.nonce),
      (isIdText, receipt.providerId), (isIdText, receipt.observerId),
      (isDigestText, receipt.contractDigest), (isDigestText, receipt.actionDigest)] = .ok true
        ↔ ReadsAs isIdText receipt.receiptId ∧ ReadsAs isIdText receipt.nonce
          ∧ ReadsAs isIdText receipt.providerId ∧ ReadsAs isIdText receipt.observerId
          ∧ ReadsAs isDigestText receipt.contractDigest
          ∧ ReadsAs isDigestText receipt.actionDigest := by
    rw [testAll_eq_true]
    simp only [List.forall_mem_cons, List.not_mem_nil, false_implies, implies_true, and_true]
    rfl
  rw [schemaValid, bind_eq_ok, ← htexts]
  constructor
  · rintro ⟨texts, hread, h⟩
    have hall := Except.ok.inj h
    simp only [Bool.and_eq_true] at hall
    rw [hall.1.1.1] at hread
    exact ⟨hread, hall.1.1.2, hall.1.2, hall.2⟩
  · rintro ⟨hread, hclaimed, hplan, haction⟩
    refine ⟨true, hread, ?_⟩
    rw [hclaimed, hplan, haction]
    rfl

theorem parseTime_eq_some {at' : Instant} :
    parseTime platform value = .ok (some at') ↔ ParsesTo platform value at' := by
  unfold parseTime ParsesTo
  cases value.text? with
  | none => simp
  | some text => simp

variable {dispatched : Instant}

theorem observationStale_eq_false
    (hdispatched : ParsesTo platform receipt.dispatchedAt dispatched) :
    observationStale platform contract receipt now = .ok false
    ↔ ∃ observedAt, ParsesTo platform receipt.observedAt observedAt
      ∧ dispatched.val ≤ observedAt.val ∧ contract.issuedAt.val ≤ observedAt.val
      ∧ observedAt.val ≤ contract.expiresAt.val ∧ 0 ≤ now.val - observedAt.val
      ∧ now.val - observedAt.val ≤ contract.maxObservationAgeMs := by
  have hparsed := parseTime_eq_some.2 hdispatched
  rw [observationStale, bind_eq_ok]
  constructor
  · rintro ⟨observed, hobserved, h⟩
    cases observed with
    | none => cases Except.ok.inj h
    | some observedAt =>
      dsimp only at h
      rw [hparsed, ok_bind] at h
      have hfresh := Except.ok.inj h
      simp only [Option.any_some, Bool.or_eq_false_iff, decide_eq_false_iff_not, not_lt] at hfresh
      exact ⟨observedAt, parseTime_eq_some.1 hobserved, hfresh.1.1.1.1, hfresh.1.1.1.2,
        hfresh.1.1.2, by omega, hfresh.1.2⟩
  · rintro ⟨observedAt, hobserved, hdispatch, hissued, hexpires, hpast, hage⟩
    refine ⟨some observedAt, parseTime_eq_some.2 hobserved, ?_⟩
    dsimp only
    rw [hparsed, ok_bind]
    have hfresh : (decide (observedAt.val < dispatched.val)
        || decide (observedAt.val < contract.issuedAt.val)
        || decide (contract.expiresAt.val < observedAt.val)
        || decide ((contract.maxObservationAgeMs : Int) < now.val - observedAt.val)
        || decide (now.val < observedAt.val)) = false := by
      simp only [Bool.or_eq_false_iff, decide_eq_false_iff_not, not_lt]
      exact ⟨⟨⟨⟨hdispatch, hissued⟩, hexpires⟩, hage⟩, by omega⟩
    exact congrArg Except.ok hfresh

theorem signatureValid_iff : signatureValid platform raw receipt = true
    ↔ ∃ signature payload, receipt.signature = .str signature
      ∧ canonicalText (raw.filter fun field => field.1 != "signature") = some payload
      ∧ platform.verifySignature payload signature = true
      ∧ 32 ≤ Json.unitLength signature ∧ Json.unitLength signature ≤ 4096 := by
  unfold signatureValid
  constructor
  · intro h
    split at h
    · next signature hsignature =>
      simp only [Bool.and_eq_true, decide_eq_true_eq, Option.any_eq_true] at h
      obtain ⟨⟨hlow, hhigh⟩, payload, hpayload, hverified⟩ := h
      exact ⟨signature, payload, hsignature, hpayload, hverified, hlow, hhigh⟩
    · cases h
  · rintro ⟨signature, payload, hsignature, hpayload, hverified, hlow, hhigh⟩
    rw [hsignature]
    dsimp only
    rw [hpayload, Option.any_some, hverified, decide_eq_true hlow, decide_eq_true hhigh]
    rfl

/-- Nothing fails, and what follows from the checks is what is claimed. -/
structure Passes (platform : Platform) (contract : OutcomeContract) (raw : Fields)
    (now : Instant) : Prop where
  bindings : bindingsMatch platform contract (readReceipt raw) = true
  schema : schemaValid (readReceipt raw) = .ok true
  fresh : observationStale platform contract (readReceipt raw) now = .ok false
  postState : test isDigestText (readReceipt raw).providerPostStateDigest = .ok true
  signed : signatureValid platform raw (readReceipt raw) = true
  claimed : claimedDisposition (readReceipt raw) = some .verified
  checks : ∃ checks, readChecks platform contract (readReceipt raw) = some checks
    ∧ (∀ check ∈ checks, check.status = .pass)
    ∧ derivedDisposition contract (readReceipt raw) checks = .verified
  written : (canonicalText raw).isSome = true

theorem ite_nil_eq_nil {c : Prop} [Decidable c] {failure : Failure} :
    (if c then [] else [failure]) = [] ↔ c := by
  by_cases h : c
  · simp [h]
  · simp [h]

theorem nil_ite_eq_nil {c : Prop} [Decidable c] {failure : Failure} :
    (if c then [failure] else []) = [] ↔ ¬ c := by
  by_cases h : c
  · simp [h]
  · simp [h]

variable {contractInput : Fields} {receiptInput : Value}

theorem evaluate_passes {nowInput : Value}
    (hcontract : revalidateContract platform contractInput = .ok contract)
    (hreceipt : exactPlainRecord receiptInput receiptFields .outcomeReceiptInvalid = .ok raw) :
    (∃ evaluation, evaluateIndependentOutcome platform contractInput receiptInput nowInput
        = .ok evaluation ∧ evaluation.verified = true)
      ↔ ∃ now, canonicalIso platform nowInput "now" = .ok now
        ∧ Passes platform contract raw now := by
  rw [evaluateIndependentOutcome, hcontract, ok_bind, hreceipt, ok_bind]
  constructor
  · rintro ⟨evaluation, h, hverified⟩
    simp only [bind_eq_ok] at h
    obtain ⟨schema, hschema, now, hnow, stale, hstale, postState, hpost, h⟩ := h
    split at h
    · next text htext =>
      cases h
      simp only [decide_eq_true_eq, List.append_eq_nil_iff, List.map_eq_nil_iff,
        List.filter_eq_nil_iff, ite_nil_eq_nil, nil_ite_eq_nil] at hverified
      obtain ⟨⟨⟨⟨⟨⟨⟨⟨hbindings, rfl⟩, hsome⟩, hfresh⟩, rfl⟩, hsigned⟩, hclaimed⟩, hpass⟩, hderived⟩ :=
        hverified
      obtain ⟨checks, hchecks⟩ := Option.isSome_iff_exists.1 hsome
      rw [hchecks, Option.getD_some] at hpass hderived hclaimed
      refine ⟨now, hnow, hbindings, hschema, ?_, hpost, hsigned, ?_, ⟨checks, hchecks, ?_, hderived⟩, ?_⟩
      · rw [hstale, Bool.eq_false_iff.2 hfresh]
      · rw [hclaimed, hderived]
      · intro check hcheck
        simpa using hpass check hcheck
      · rw [htext]
        rfl
    · cases h
  · rintro ⟨now, hnow, hpasses⟩
    obtain ⟨checks, hchecks, hpass, hderived⟩ := hpasses.checks
    obtain ⟨text, htext⟩ := Option.isSome_iff_exists.1 hpasses.written
    have hnone : checks.filter (fun check => check.status ≠ .pass) = [] := by
      rw [List.filter_eq_nil_iff]
      intro check hcheck
      simp [hpass check hcheck]
    refine ⟨{ disposition := .verified, verified := true, receiptDigest := platform.sha256 text
              failures := [] }, ?_, rfl⟩
    simp only [hpasses.schema, hnow, hpasses.fresh, hpasses.postState, hchecks, hpasses.signed,
      hpasses.bindings, hpasses.claimed, htext, ok_bind, Option.getD_some, hderived, hnone]
    rfl

theorem checks_iff {receipt : Receipt} (hclaimed : receipt.disposition = .str "VERIFIED")
    (hexpectations : contract.expectations ≠ []) :
    (∃ checks, readChecks platform contract receipt = some checks
        ∧ (∀ check ∈ checks, check.status = .pass)
        ∧ derivedDisposition contract receipt checks = .verified)
      ↔ Covered contract receipt.checks ∧ ∀ ref text items, receipt.checks = .arr ref text items →
        1 ≤ items.length ∧ items.length ≤ 128 := by
  have hnot : ∀ checks : List OutcomeCheck, ¬ (claimedDisposition receipt = some .uncertain
      ∧ ∃ check ∈ checks, check.status = .inconclusive) := by
    intro checks huncertain
    rw [claimedDisposition_verified.2 hclaimed] at huncertain
    cases huncertain.1
  constructor
  · rintro ⟨sorted, hsorted, hpass, hderived⟩
    obtain ⟨ref, text, items, checks, hvalue, hlow, hhigh, hchecks, hnodup, rfl⟩ :=
      normalizeChecks_eq_ok.1 (toOption_eq_some.1 hsorted)
    have hmem : ∀ check, check ∈ checks.insertionSort (fun a b =>
        platform.localeCompare a.expectationId.val b.expectationId.val ≤ 0) ↔ check ∈ checks :=
      fun check => List.mem_insertionSort _
    rw [derivedDisposition, if_neg (hnot _)] at hderived
    split at hderived
    · cases hderived
    · refine ⟨⟨ref, text, items, checks, hvalue, hchecks, hnodup, ?_, ?_⟩, ?_⟩
      · exact fun check hcheck => hpass check ((hmem check).2 hcheck)
      · intro expectation hexpectation
        obtain ⟨check, hcheck, hid, -⟩ :=
          statusOf_eq_some (deriveDisposition_eq_verified.1 hderived expectation hexpectation)
        exact ⟨check, (hmem check).1 hcheck, hid⟩
      · intro ref' text' items' hvalue'
        rw [hvalue] at hvalue'
        cases hvalue'
        exact ⟨hlow, hhigh⟩
  · rintro ⟨⟨ref, text, items, checks, hvalue, hchecks, hnodup, hpass, hcover⟩, hcount⟩
    obtain ⟨hlow, hhigh⟩ := hcount ref text items hvalue
    have hnormalized : normalizeChecks platform receipt.checks contract
        = .ok (checks.insertionSort fun a b =>
          platform.localeCompare a.expectationId.val b.expectationId.val ≤ 0) :=
      normalizeChecks_eq_ok.2 ⟨ref, text, items, checks, hvalue, hlow, hhigh, hchecks, hnodup, rfl⟩
    refine ⟨_, toOption_eq_some.2 hnormalized, ?_, ?_⟩
    · exact fun check hcheck => hpass check ((List.mem_insertionSort _).1 hcheck)
    · have hsorted : ∀ check ∈ checks.insertionSort (fun a b =>
          platform.localeCompare a.expectationId.val b.expectationId.val ≤ 0),
          check.status = .pass :=
        fun check hcheck => hpass check ((List.mem_insertionSort _).1 hcheck)
      have hcovered : ∀ expectation ∈ contract.expectations,
          ∃ check ∈ checks.insertionSort (fun a b =>
            platform.localeCompare a.expectationId.val b.expectationId.val ≤ 0),
            check.expectationId = expectation.id := by
        intro expectation hexpectation
        obtain ⟨check, hcheck, hid⟩ := hcover expectation hexpectation
        exact ⟨check, (List.mem_insertionSort _).2 hcheck, hid⟩
      rw [derivedDisposition, if_neg (hnot _), if_neg]
      · exact deriveDisposition_eq_verified.2 fun expectation hexpectation =>
          statusOf_pass hsorted (hcovered expectation hexpectation)
      · intro hempty
        obtain ⟨expectation, hexpectation⟩ := List.exists_mem_of_ne_nil _ hexpectations
        obtain ⟨check, hcheck, -⟩ := hcovered expectation hexpectation
        rw [hempty] at hcheck
        cases hcheck

theorem expectations_ne_nil (h : revalidateContract platform contractInput = .ok contract) :
    contract.expectations ≠ [] := by
  simp only [revalidateContract, createOutcomeContract, bind_eq_ok] at h
  obtain ⟨_, -, raw, -, domain, -, items, hitems, expectations, hexpectations, _, -, _, -, h⟩ := h
  obtain ⟨_, -, _, -, _, -, _, -, _, -, _, -, _, -, _, -, _, -, _, -, _, -, _, -, h⟩ := h
  cases h
  have hlength := length_mapM hexpectations
  unfold exactArray at hitems
  split at hitems
  · split at hitems
    · cases hitems
    · next hrange =>
      cases hitems
      intro hnil
      have hzero : expectations = [] := hnil
      rw [hzero, List.length_nil] at hlength
      omega
  · cases hitems

theorem receiptFields_nodup : receiptFields.Nodup := by decide

theorem canonicalText_raw {signature payload : String}
    (hreceipt : exactPlainRecord receiptInput receiptFields .outcomeReceiptInvalid = .ok raw)
    (hsignature : (readReceipt raw).signature = .str signature)
    (hpayload : canonicalText (raw.filter fun field => field.1 != "signature") = some payload) :
    (canonicalText raw).isSome = true := by
  have hkeys := exactPlainRecord_nodup receiptFields_nodup hreceipt
  have hunsigned : (Value.encodeFields (raw.filter fun field => field.1 != "signature")).isSome
      = true := by
    obtain ⟨fields, hfields, -⟩ := Option.map_eq_some_iff.1 hpayload
    rw [hfields]
    rfl
  rw [canonicalText, Option.isSome_map]
  refine encodeFields_isSome.2 ?_
  intro field hfield
  by_cases hkey : field.1 = "signature"
  · have hvalue := get_of_mem hkeys hfield
    rw [hkey] at hvalue
    rw [← hvalue, show raw.get "signature" = .str signature from hsignature]
    rfl
  · refine encodeFields_isSome.1 hunsigned field (List.mem_filter.2 ⟨hfield, ?_⟩)
    simpa using hkey

theorem readsAs_hex64 (digest : Hex64) (h : value = .str digest.val) :
    ReadsAs isDigestText value := by
  subst h
  exact ⟨digest.val, rfl, digest.property⟩

theorem passes_iff (hexpectations : contract.expectations ≠ [])
    (hreceipt : exactPlainRecord receiptInput receiptFields .outcomeReceiptInvalid = .ok raw)
    (hdispatched : ParsesTo platform (readReceipt raw).dispatchedAt dispatched) :
    Passes platform contract raw now
    ↔ Confirmed platform contract raw (readReceipt raw) now ∧ WellFormed (readReceipt raw) := by
  constructor
  · intro h
    obtain ⟨hversion, hdigest, haction, hactionDigest, hplan, hplanGeneration, hactionGeneration,
      hprincipal, hdevice, hindependent, hobserver⟩ := bindingsMatch_iff.1 h.bindings
    obtain ⟨⟨hreceiptId, hnonce, hprovider, hobserverId, -, -⟩, -, -, -⟩ := schemaValid_iff.1 h.schema
    obtain ⟨observed, hobserved, hwindow⟩ := (observationStale_eq_false hdispatched).1 h.fresh
    obtain ⟨signature, payload, hsignature, hpayload, hverified, hlength⟩ :=
      signatureValid_iff.1 h.signed
    have hclaimed := claimedDisposition_verified.1 h.claimed
    obtain ⟨hcovered, hcount⟩ := (checks_iff hclaimed hexpectations).1 h.checks
    refine ⟨⟨⟨signature, payload, hsignature, hpayload, hverified⟩, hdigest, haction, hactionDigest,
      hplan, hplanGeneration, hactionGeneration, hprincipal, hdevice, hobserver,
      ⟨observed, dispatched, hobserved, hdispatched, hwindow⟩, hcovered, hclaimed⟩, ?_⟩
    refine ⟨hversion, hindependent, hreceiptId, hnonce, hprovider, hobserverId,
      test_eq_true.1 h.postState, ?_, hcount⟩
    intro text htext
    rw [hsignature] at htext
    cases htext
    exact hlength
  · rintro ⟨hconfirmed, hformed⟩
    obtain ⟨signature, payload, hsignature, hpayload, hverified⟩ := hconfirmed.signed
    have hclaimed := claimedDisposition_verified.2 hconfirmed.claimed
    refine ⟨?_, ?_, ?_, test_eq_true.2 hformed.providerPostStateDigest, ?_, hclaimed, ?_, ?_⟩
    · exact bindingsMatch_iff.2 ⟨hformed.schemaVersion, hconfirmed.contractDigest,
        hconfirmed.actionId, hconfirmed.actionDigest, hconfirmed.planId, hconfirmed.planGeneration,
        hconfirmed.actionGeneration, hconfirmed.principalId, hconfirmed.deviceId,
        hformed.observerIndependent, hconfirmed.observer⟩
    · refine schemaValid_iff.2 ⟨⟨hformed.receiptId, hformed.nonce, hformed.providerId,
        hformed.observerId, readsAs_hex64 _ hconfirmed.contractDigest,
        readsAs_hex64 _ hconfirmed.actionDigest⟩, ?_, ?_, ?_⟩
      · rw [hclaimed]
        rfl
      · rw [hconfirmed.planGeneration, generation?_val]
        rfl
      · rw [hconfirmed.actionGeneration, generation?_val]
        rfl
    · obtain ⟨observed, dispatched', hobserved, hdispatched', hwindow⟩ := hconfirmed.timely
      exact (observationStale_eq_false hdispatched').2 ⟨observed, hobserved, hwindow⟩
    · exact signatureValid_iff.2
        ⟨signature, payload, hsignature, hpayload, hverified, hformed.signature signature hsignature⟩
    · exact (checks_iff hconfirmed.claimed hexpectations).2 ⟨hconfirmed.covered, hformed.checks⟩
    · exact canonicalText_raw hreceipt hsignature hpayload

theorem evaluate_verified_iff {nowInput : Value}
    (hcontract : revalidateContract platform contractInput = .ok contract)
    (hreceipt : exactPlainRecord receiptInput receiptFields .outcomeReceiptInvalid = .ok raw)
    (hdispatched : ParsesTo platform (readReceipt raw).dispatchedAt dispatched) :
    (∃ evaluation, evaluateIndependentOutcome platform contractInput receiptInput nowInput
        = .ok evaluation ∧ evaluation.verified = true)
      ↔ ∃ now, canonicalIso platform nowInput "now" = .ok now
        ∧ Confirmed platform contract raw (readReceipt raw) now ∧ WellFormed (readReceipt raw) := by
  rw [evaluate_passes hcontract hreceipt]
  have hexpectations := expectations_ne_nil hcontract
  constructor
  · rintro ⟨now, hnow, hpasses⟩
    exact ⟨now, hnow, (passes_iff hexpectations hreceipt hdispatched).1 hpasses⟩
  · rintro ⟨now, hnow, hall⟩
    exact ⟨now, hnow, (passes_iff hexpectations hreceipt hdispatched).2 hall⟩

end OperatorRuntime.Outcome
