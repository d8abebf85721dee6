/-
What the ledger of consumed receipts keeps, and the soundness of an outcome
and its consumption together. The ledger may grow to one receipt more than it
reads back.
-/
import OperatorRuntime.Lib.Runs
import OperatorRuntime.Outcome.Proofs.Evaluation

namespace OperatorRuntime.Outcome

open Lib

variable {platform : Platform} {fits : Ledger → Bool}

-- ===== runs

/-- A receipt is presented; its process may end before `consume` answers. -/
structure Presented where
  receipt : Fields
  answers : Bool

/-- The file, and the receipts for which a call answered. -/
structure World where
  ledger : Ledger
  answered : List (String × String)

def noReceipts : World := ⟨[], []⟩

def ConsumedReceipt.identity (item : ConsumedReceipt) : String × String :=
  (item.receiptId, item.nonce)

/-- What a call that consumed a receipt leaves. -/
def World.consumed (world : World) (presented : Presented) (written : Ledger) : World where
  ledger := written
  answered := if presented.answers = true
    then world.answered ++ (written.getLast?.map ConsumedReceipt.identity).toList
    else world.answered

def Steps (platform : Platform) (fits : Ledger → Bool) (world : World) (presented : Presented)
    (world' : World) : Prop :=
  world' = world ∨ ∃ written, consume platform fits world.ledger presented.receipt = .ok written
    ∧ world' = world.consumed presented written

theorem consume_ok {ledger written : Ledger} {receipt : Fields}
    (h : consume platform fits ledger receipt = .ok written) : ∃ item, written = ledger ++ [item]
    ∧ ∀ old ∈ ledger, old.receiptId ≠ item.receiptId ∧ old.nonce ≠ item.nonce := by
  simp only [consume, readLedger, bind_eq_ok, rejectIf_eq_ok] at h
  obtain ⟨⟨receiptId, nonce⟩, -, consumed, ⟨_, -, hread⟩, _, hnew, h⟩ := h
  cases hread
  split at h
  · next text htext =>
    simp only [bind_eq_ok] at h
    obtain ⟨_, -, h⟩ := h
    cases h
    refine ⟨_, rfl, ?_⟩
    intro old hold
    simp only [not_exists, not_and, not_or] at hnew
    exact hnew old hold
  · cases h

structure LedgerInv (world : World) : Prop where
  receiptIds : (world.ledger.map ConsumedReceipt.receiptId).Nodup
  nonces : (world.ledger.map ConsumedReceipt.nonce).Nodup
  answered : world.answered.Sublist (world.ledger.map ConsumedReceipt.identity)

theorem nodup_snoc {α β : Type} {f : α → β} {l : List α} {a : α} (h : (l.map f).Nodup)
    (hnew : ∀ b ∈ l, f b ≠ f a) : ((l ++ [a]).map f).Nodup := by
  rw [List.map_append]
  apply h.append (List.nodup_singleton _)
  intro x hx ha
  obtain ⟨b, hb, rfl⟩ := List.mem_map.1 hx
  exact hnew b hb (List.mem_singleton.1 ha)

theorem LedgerInv.steps {world world' : World} {presented : Presented} (h : LedgerInv world)
    (hstep : Steps platform fits world presented world') : LedgerInv world' := by
  rcases hstep with rfl | ⟨written, hconsume, rfl⟩
  · exact h
  · obtain ⟨item, rfl, hnew⟩ := consume_ok hconsume
    refine ⟨nodup_snoc h.receiptIds fun old hold => (hnew old hold).1,
      nodup_snoc h.nonces fun old hold => (hnew old hold).2, ?_⟩
    show (World.consumed world presented (world.ledger ++ [item])).answered.Sublist
      ((world.ledger ++ [item]).map ConsumedReceipt.identity)
    unfold World.consumed
    dsimp only
    rw [List.getLast?_concat, List.map_append]
    split
    · exact h.answered.append (List.Sublist.refl _)
    · exact h.answered.trans (List.sublist_append_left _ _)

theorem ledger_inv {calls : List Presented} {world : World}
    (hrun : Run (Steps platform fits) noReceipts calls world) : LedgerInv world := by
  have hempty : LedgerInv noReceipts := ⟨List.nodup_nil, List.nodup_nil, List.Sublist.refl _⟩
  exact hrun.invariant hempty fun h hstep => h.steps hstep

/-- An outcome is verified exactly for a well-formed receipt that is the proof
its contract asks for. No receipt identifier and no nonce is consumed twice,
and a ledger of at most `maxConsumed` receipts reads back. -/
theorem independent_outcome (platform : Platform) :
    (∀ {contractInput : Fields} {contract : OutcomeContract} {receiptInput nowInput : Value}
        {raw : Fields} {dispatched : Instant},
      revalidateContract platform contractInput = .ok contract →
      exactPlainRecord receiptInput receiptFields .outcomeReceiptInvalid = .ok raw →
      ParsesTo platform (readReceipt raw).dispatchedAt dispatched →
      ((∃ evaluation, evaluateIndependentOutcome platform contractInput receiptInput nowInput
          = .ok evaluation ∧ evaluation.verified = true)
        ↔ ∃ now, canonicalIso platform nowInput "now" = .ok now
          ∧ Confirmed platform contract raw (readReceipt raw) now ∧ WellFormed (readReceipt raw)))
    ∧ ∀ {fits : Ledger → Bool} {calls : List Presented} {world : World},
      Run (Steps platform fits) noReceipts calls world →
      (world.answered.map Prod.fst).Nodup ∧ (world.answered.map Prod.snd).Nodup
        ∧ (world.ledger.length ≤ maxConsumed → readLedger world.ledger = .ok world.ledger) := by
  refine ⟨fun hcontract hreceipt hdispatched => evaluate_verified_iff hcontract hreceipt hdispatched, ?_⟩
  intro fits calls world hrun
  have hinv := ledger_inv hrun
  have hids := hinv.answered.map Prod.fst
  have hnonces := hinv.answered.map Prod.snd
  rw [List.map_map] at hids hnonces
  refine ⟨hids.nodup hinv.receiptIds, hnonces.nodup hinv.nonces, ?_⟩
  intro hlength
  rw [readLedger, rejectIf_of_not (by omega)]
  rfl

-- ===== samples

def sampleDigest : Hex64 :=
  ⟨"aaaaaaaaaaaaaaaaaaaaaaaaaaaaaaaaaaaaaaaaaaaaaaaaaaaaaaaaaaaaaaaa", by decide⟩

def sampleInstant : Instant := ⟨0, zero_instant⟩

/-- A platform that knows two times and takes every signature. -/
def samplePlatform : Platform where
  sha256 := fun _ => sampleDigest
  dateParse := fun text =>
    if text = "1970-01-01T00:00:00.000Z" then some sampleInstant
    else if text = "1970-01-01T00:00:01.000Z" then some ⟨1000, second_instant⟩
    else none
  localeCompare := fun _ _ => 0
  verifySignature := fun _ _ => true

theorem one_generation : 1 ≤ 1 ∧ 1 ≤ maxSafeInteger := by decide

def sampleContract : OutcomeContract where
  contractId := ⟨"contract", by decide⟩
  domain := .download
  actionId := ⟨"action", by decide⟩
  actionDigest := sampleDigest
  planId := ⟨"plan", by decide⟩
  planGeneration := ⟨1, one_generation⟩
  actionGeneration := ⟨1, one_generation⟩
  principalId := ⟨"principal", by decide⟩
  deviceId := ⟨"device", by decide⟩
  expectations := [{ id := ⟨"saved", by decide⟩, description := "The file is there.", required := true }]
  maxObservationAgeMs := 1000
  issuedAt := sampleInstant
  expiresAt := ⟨1000, second_instant⟩

def sampleContractFields : Fields :=
  [("schemaVersion", .int 1), ("contractId", .str "contract"), ("domain", .str "download"),
    ("actionId", .str "action"), ("actionDigest", .str sampleDigest.val), ("planId", .str "plan"),
    ("planGeneration", .int 1), ("actionGeneration", .int 1), ("principalId", .str "principal"),
    ("deviceId", .str "device"),
    ("expectations", .arr 1 none [.obj 2 none [("id", .str "saved"),
      ("description", .str "The file is there."), ("required", .bool true)]]),
    ("maxObservationAgeMs", .int 1000), ("issuedAt", .str "1970-01-01T00:00:00.000Z"),
    ("expiresAt", .str "1970-01-01T00:00:01.000Z")]

/-- An observer's receipt for the contract, under some identifier. -/
def sampleReceiptFields (receiptId : String) : Fields :=
  [("schemaVersion", .int 1), ("receiptId", .str receiptId), ("nonce", .str "nonce"),
    ("contractDigest", .str sampleDigest.val), ("actionId", .str "action"),
    ("actionDigest", .str sampleDigest.val), ("planId", .str "plan"), ("planGeneration", .int 1),
    ("actionGeneration", .int 1), ("principalId", .str "principal"), ("deviceId", .str "device"),
    ("providerId", .str "provider"), ("observerId", .str "observer"),
    ("observerIndependent", .bool true), ("dispatchedAt", .str "1970-01-01T00:00:00.000Z"),
    ("observedAt", .str "1970-01-01T00:00:00.000Z"),
    ("providerPostStateDigest", .str sampleDigest.val), ("disposition", .str "VERIFIED"),
    ("checks", .arr 3 none [.obj 4 none [("expectationId", .str "saved"), ("status", .str "PASS"),
      ("evidenceDigest", .str sampleDigest.val), ("evidenceLocation", .str "artifact:file")]]),
    ("signature", .str "aaaaaaaaaaaaaaaaaaaaaaaaaaaaaaaaaaaaaaaa")]

def sampleReceipt (receiptId : String) : Value := .obj 0 none (sampleReceiptFields receiptId)

def sampleNow : Value := .str "1970-01-01T00:00:01.000Z"

theorem sampleContract_valid :
    revalidateContract samplePlatform sampleContractFields = .ok sampleContract :=
  toOption_eq_some.1 (by decide)

def sampleCheck : OutcomeCheck where
  expectationId := ⟨"saved", by decide⟩
  status := .pass
  evidenceDigest := sampleDigest
  evidenceLocation := "artifact:file"

theorem sampleReceipt_confirmed (receiptId : String)
    (hwritten : (canonicalText ((sampleReceiptFields receiptId).filter
      fun field => field.1 != "signature")).isSome = true) :
    Confirmed samplePlatform sampleContract (sampleReceiptFields receiptId)
      (readReceipt (sampleReceiptFields receiptId)) ⟨1000, by decide⟩ := by
  obtain ⟨payload, hpayload⟩ := Option.isSome_iff_exists.1 hwritten
  have hchecks : [Value.obj 4 none [("expectationId", .str "saved"), ("status", .str "PASS"),
      ("evidenceDigest", .str sampleDigest.val), ("evidenceLocation", .str "artifact:file")]].mapM
        (readCheck sampleContract) = .ok [sampleCheck] :=
    toOption_eq_some.1 (by decide)
  have hobserver : (Value.str "provider").strictEq (.str "observer") = false := by decide
  have htime : ParsesTo samplePlatform (.str "1970-01-01T00:00:00.000Z") sampleInstant := ⟨_, rfl, rfl⟩
  refine ⟨⟨_, payload, rfl, hpayload, rfl⟩, rfl, rfl, rfl, rfl, rfl, rfl, rfl, rfl, hobserver,
    ⟨_, _, htime, htime, by decide, by decide, by decide, by decide, by decide⟩, ?_, rfl⟩
  refine ⟨_, _, _, _, rfl, hchecks, by decide, ?_, ?_⟩
  · intro check hcheck
    rw [List.mem_singleton.1 hcheck]
    rfl
  · intro expectation hexpectation
    rw [List.mem_singleton.1 hexpectation]
    exact ⟨sampleCheck, List.mem_singleton_self _, rfl⟩

theorem sampleNow_canonical : canonicalIso samplePlatform sampleNow "now" = .ok ⟨1000, by decide⟩ :=
  toOption_eq_some.1 (by decide)

theorem sampleDispatched (receiptId : String) :
    ParsesTo samplePlatform (readReceipt (sampleReceiptFields receiptId)).dispatchedAt sampleInstant :=
  ⟨_, rfl, rfl⟩

/-- A receipt with an identifier is verified, and consumed. -/
theorem independent_outcome_sample :
    (∃ evaluation, evaluateIndependentOutcome samplePlatform sampleContractFields
        (sampleReceipt "receipt") sampleNow = .ok evaluation ∧ evaluation.verified = true)
      ∧ ∃ calls world, Run (Steps samplePlatform fun _ => true) noReceipts calls world
        ∧ world.answered = [("receipt", "nonce")]
        ∧ (world.answered.map Prod.fst).Nodup ∧ (world.answered.map Prod.snd).Nodup
        ∧ readLedger world.ledger = .ok world.ledger := by
  refine ⟨?_, ?_⟩
  · have hexact : exactPlainRecord (sampleReceipt "receipt") receiptFields .outcomeReceiptInvalid
        = .ok (sampleReceiptFields "receipt") := by
      rw [sampleReceipt, exactPlainRecord, if_neg (by decide)]
    refine ((independent_outcome samplePlatform).1 sampleContract_valid hexact
      (sampleDispatched "receipt")).2
        ⟨_, sampleNow_canonical, sampleReceipt_confirmed "receipt" (by decide), ?_⟩
    refine ⟨rfl, rfl, ⟨_, rfl, by decide⟩, ⟨_, rfl, by decide⟩, ⟨_, rfl, by decide⟩,
      ⟨_, rfl, by decide⟩, ⟨_, rfl, sampleDigest.property⟩, ?_, ?_⟩
    · intro text htext
      cases htext
      decide
    · intro ref text items hitems
      cases hitems
      decide
  · have hconsume : consume samplePlatform (fun _ => true) noReceipts.ledger
        (sampleReceiptFields "receipt")
          = .ok [{ receiptId := "receipt", nonce := "nonce", digest := sampleDigest }] :=
      toOption_eq_some.1 (by decide)
    have hrun : Run (Steps samplePlatform fun _ => true) noReceipts
        ([] ++ [⟨sampleReceiptFields "receipt", true⟩]) _ :=
      Run.snoc Run.nil (.inr ⟨_, hconsume, rfl⟩)
    obtain ⟨hids, hnonces, hreads⟩ := (independent_outcome samplePlatform).2 hrun
    exact ⟨_, _, hrun, rfl, hids, hnonces, hreads (by decide)⟩

/-- A receipt that is the proof its contract asks for, under the empty
identifier, is not verified. -/
theorem emptyReceiptId_refused :
    revalidateContract samplePlatform sampleContractFields = .ok sampleContract
    ∧ exactPlainRecord (sampleReceipt "") receiptFields .outcomeReceiptInvalid
      = .ok (sampleReceiptFields "")
    ∧ canonicalIso samplePlatform sampleNow "now" = .ok ⟨1000, by decide⟩
    ∧ Confirmed samplePlatform sampleContract (sampleReceiptFields "")
      (readReceipt (sampleReceiptFields "")) ⟨1000, by decide⟩
    ∧ ¬ ∃ evaluation, evaluateIndependentOutcome samplePlatform sampleContractFields
      (sampleReceipt "") sampleNow = .ok evaluation ∧ evaluation.verified = true := by
  have hexact : exactPlainRecord (sampleReceipt "") receiptFields .outcomeReceiptInvalid
      = .ok (sampleReceiptFields "") := by
    rw [sampleReceipt, exactPlainRecord, if_neg (by decide)]
  refine ⟨sampleContract_valid, hexact, sampleNow_canonical,
    sampleReceipt_confirmed "" (by decide), ?_⟩
  intro hverified
  obtain ⟨now, -, -, hformed⟩ :=
    (evaluate_verified_iff sampleContract_valid hexact (sampleDispatched "")).1 hverified
  obtain ⟨text, htext, hid⟩ := hformed.receiptId
  cases htext
  exact absurd hid (by decide)

end OperatorRuntime.Outcome
