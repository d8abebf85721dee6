/-
What the counters of a procedure stand for. Beside the file there is a log
of what each call made count, newest first; the counters of a procedure
are those of its own events (`Tracked`). A capture counts unless it is the
latest one again, so the runs are the distinct evidence as long as no call
records an earlier capture a second time (`NewPair`).
-/
import Mathlib.Data.List.Dedup
import Mathlib.Data.List.Sort
import OperatorRuntime.Lib.Passes
import OperatorRuntime.Lib.Pointwise
import OperatorRuntime.Lib.Runs
import OperatorRuntime.Memory.ProcedureMemory

namespace OperatorRuntime.ProcedureMemory

open Lib

-- ===== events

/-- The evidence of a capture: its verification and evidence digests. -/
abbrev Pair := Hex64 × Hex64

def VerifiedProcedure.pair (p : VerifiedProcedure) : Pair :=
  (p.verificationDigest, p.verifierEvidenceDigest)

def NormalizedProcedure.pair (normalized : NormalizedProcedure) : Pair :=
  (normalized.verificationDigest, normalized.verifierEvidenceDigest)

/-- What a call made count, of the procedure it concerns. -/
inductive Event
  | captured (id : Uuid) (pair : Pair)
  | outcome (id : Uuid) (outcome : Outcome) (receipt : Option Hex64)

def Event.id : Event → Uuid
  | .captured id _ => id
  | .outcome id _ _ => id

def Event.pair? : Event → Option Pair
  | .captured _ pair => some pair
  | .outcome _ _ _ => none

def Event.receipt? : Event → Option Hex64
  | .captured _ _ => none
  | .outcome _ _ receipt => receipt

def Event.verified? : Event → Option Hex64
  | .outcome _ .verified receipt => receipt
  | _ => none

/-- A verified outcome without a receipt. -/
def Event.receiptless : Event → Bool
  | .outcome _ .verified none => true
  | _ => false

def eventsOf (log : List Event) (id : Uuid) : List Event :=
  log.filter fun event => event.id == id

def pairs (events : List Event) : List Pair := events.filterMap Event.pair?
def receipts (events : List Event) : List Hex64 := events.filterMap Event.receipt?
def verifiedReceipts (events : List Event) : List Hex64 := events.filterMap Event.verified?
def receiptlessRuns (events : List Event) : Nat := events.countP Event.receiptless

/-- The distinct evidence of a procedure's verified outcomes. -/
def evidence (events : List Event) : Nat :=
  (pairs events).dedup.length + (verifiedReceipts events).dedup.length

-- ===== runs

inductive Call
  | recordVerified (now : ClockReading) (id : Uuid) (input : ProcedureInput)
  | recordOutcome (now : ClockReading) (id : String) (outcome : Outcome) (receipt : Option String)
  | invalidate (now : ClockReading) (id reason : String)

def Call.perform (platform : Platform) (state : ProcedureMemoryState) : Call → Answer
  | .recordVerified now id input => ProcedureMemory.recordVerified platform state now id input
  | .recordOutcome now id outcome receipt =>
    ProcedureMemory.recordOutcome platform state now id outcome receipt
  | .invalidate now id reason => ProcedureMemory.invalidate platform state now id reason

/-- What a call that wrote made count; it answered the procedure. -/
def Call.events (p : VerifiedProcedure) : Call → List Event
  | .recordVerified _ _ _ => [.captured p.id p.pair]
  | .recordOutcome _ _ outcome receipt => [.outcome p.id outcome (receipt.bind hex64?)]
  | .invalidate _ _ _ => []

/-- The file, and the log. -/
structure World where
  state : ProcedureMemoryState
  log : List Event

def empty : World := ⟨⟨[]⟩, []⟩

def World.after (platform : Platform) (world : World) (call : Call) : World :=
  match call.perform platform world.state with
  | .ok (p, some state) => ⟨state, call.events p ++ world.log⟩
  | _ => world

def Steps (platform : Platform) (world : World) (call : Call) (world' : World) : Prop :=
  world' = world.after platform call

/-- `randomUUID` gives an identifier no procedure has had. -/
def Fresh (world : World) : Call → Prop
  | .recordVerified _ id _ => ∀ event ∈ world.log, event.id ≠ id
  | _ => True

/-- The call records no evidence that was recorded for its procedure
before, or it repeats the latest. -/
def NewPair (platform : Platform) (world : World) : Call → Prop
  | .recordVerified _ _ input => ∀ normalized existing,
      normalizeProcedureInput platform input = .ok normalized →
      existing ∈ world.state.procedures → existing.key = normalized.key →
      existing.scopeKey = normalized.scopeKey → existing.pair ≠ normalized.pair →
      normalized.pair ∉ pairs (eventsOf world.log existing.id)
  | _ => True

-- ===== changes

/-- How a call moves the counters of the procedure it writes. -/
inductive Moved (platform : Platform) (call : Call) (a b : VerifiedProcedure) :
    List Event → Prop
  | recaptured (now : ClockReading) (id : Uuid) (input : ProcedureInput)
      (normalized : NormalizedProcedure) (hcall : call = .recordVerified now id input)
      (hinput : normalizeProcedureInput platform input = .ok normalized)
      (hkey : a.key = normalized.key) (hscope : a.scopeKey = normalized.scopeKey)
      (hpair : b.pair = normalized.pair) (hnew : a.pair ≠ b.pair)
      (hversion : b.version = a.version + 1) (hruns : b.verifiedRuns = a.verifiedRuns + 1)
      (hreceipts : b.receipts = a.receipts) : Moved platform call a b [.captured b.id b.pair]
  | counted (outcome : Outcome) (receipt : Option Hex64)
      (hnew : ∀ digest ∈ receipt, digest ∉ a.receipts) (hpair : b.pair = a.pair)
      (hversion : b.version = a.version)
      (hruns : b.verifiedRuns = a.verifiedRuns + if outcome = .verified then 1 else 0)
      (hreceipts : b.receipts = a.receipts ++ receipt.toList) :
      Moved platform call a b [.outcome b.id outcome receipt]
  | kept (hpair : b.pair = a.pair) (hversion : b.version = a.version)
      (hruns : b.verifiedRuns = a.verifiedRuns) (hreceipts : b.receipts = a.receipts) :
      Moved platform call a b []

/-- What a call does: nothing, or it writes one procedure, or it adds one
and drops others. -/
inductive Change (platform : Platform) (call : Call) (world : World) : World → Prop
  | unchanged : Change platform call world world
  | replaced (before after procedures : List VerifiedProcedure) (a b : VerifiedProcedure)
      (events : List Event) (hbefore : world.state.procedures = before ++ a :: after)
      (hafter : procedures.Perm (before ++ b :: after)) (hid : b.id = a.id)
      (hmoved : Moved platform call a b events) :
      Change platform call world ⟨⟨procedures⟩, events ++ world.log⟩
  | added (now : ClockReading) (input : ProcedureInput) (kept procedures : List VerifiedProcedure)
      (b : VerifiedProcedure) (hcall : call = .recordVerified now b.id input)
      (hkept : ∀ p ∈ kept, p ∈ world.state.procedures)
      (hdistinct : (world.state.procedures.map VerifiedProcedure.id).Nodup →
        (kept.map VerifiedProcedure.id).Nodup)
      (hafter : procedures.Perm (b :: kept)) (hversion : b.version = 1)
      (hruns : b.verifiedRuns = 1) (hreceipts : b.receipts = []) :
      Change platform call world ⟨⟨procedures⟩, [.captured b.id b.pair] ++ world.log⟩

variable {platform : Platform}

theorem write_eq_ok {state written : ProcedureMemoryState}
    (h : write platform state = .ok written) : written = state := by
  rw [write] at h
  simp only [bind_eq_ok] at h
  obtain ⟨_, -, _, -, h⟩ := h
  cases h
  rfl

variable {now : ClockReading}

theorem makeRoom_spec {procedures kept : List VerifiedProcedure}
    (h : makeRoom platform now procedures = .ok kept) :
    (∀ p ∈ kept, p ∈ procedures) ∧ ((procedures.map VerifiedProcedure.id).Nodup →
      (kept.map VerifiedProcedure.id).Nodup) := by
  rw [makeRoom] at h
  split at h
  · dsimp only at h
    split at h
    · cases h
      refine ⟨?_, ?_⟩
      · intro p hp
        exact (List.perm_insertionSort _ _).subset (List.eraseP_sublist.subset hp)
      · intro hnodup
        apply List.Nodup.sublist (List.eraseP_sublist.map _)
        exact ((List.perm_insertionSort _ _).map _).nodup_iff.2 hnodup
    · cases h
  · cases h
    exact ⟨fun _ hp => hp, fun hnodup => hnodup⟩

variable {world : World} {p : VerifiedProcedure}

theorem recordVerified_change {id : Uuid} {input : ProcedureInput} {state : ProcedureMemoryState}
    (h : recordVerified platform world.state now id input = .ok (p, some state)) :
    Change platform (.recordVerified now id input) world
      ⟨state, [.captured p.id p.pair] ++ world.log⟩ := by
  rw [recordVerified, bind_eq_ok] at h
  obtain ⟨normalized, hinput, h⟩ := h
  dsimp only at h
  split at h
  · next existing hfind =>
    have hfound := List.find?_some hfind
    rw [findIdentity, Bool.and_eq_true, beq_iff_eq, beq_iff_eq] at hfound
    split at h
    · cases h
    · next hpair =>
      simp only [bind_eq_ok] at h
      obtain ⟨updatedAt, -, expiresAt, -, written, hwrite, h⟩ := h
      cases h
      obtain rfl := write_eq_ok hwrite
      let b := recapture existing normalized updatedAt expiresAt
      obtain ⟨before, after, hbefore, hafter⟩ := updateFirst_split (b := b) hfind
      refine .replaced before after _ existing b _ hbefore ?_ rfl ?_
      · rw [← hafter]
        exact List.perm_insertionSort _ _
      · refine .recaptured now id input normalized rfl hinput hfound.1 hfound.2 rfl ?_ rfl rfl rfl
        intro heq
        exact hpair ⟨congrArg Prod.fst heq, congrArg Prod.snd heq⟩
  · simp only [bind_eq_ok] at h
    obtain ⟨kept, hkept, createdAt, -, expiresAt, -, written, hwrite, h⟩ := h
    cases h
    obtain rfl := write_eq_ok hwrite
    obtain ⟨hsubset, hdistinct⟩ := makeRoom_spec hkept
    refine .added now input kept _ (capture id normalized createdAt expiresAt) rfl hsubset hdistinct
      ?_ rfl rfl rfl
    exact (List.perm_insertionSort _ _).trans (List.perm_append_singleton _ _)

theorem shaDigest_eq_ok {input label : String} {digest : Hex64}
    (h : shaDigest input label = .ok digest) : hex64? input = some digest := by
  rw [shaDigest] at h
  cases hdigest : hex64? input with
  | none =>
    rw [hdigest] at h
    cases h
  | some d =>
    rw [hdigest] at h
    cases h
    rfl

theorem receipt_eq {receipt : Option String} {digest : Option Hex64} {label : String}
    (h : receipt.mapM (fun receipt => shaDigest receipt label) = .ok digest) :
    receipt.bind hex64? = digest := by
  cases receipt with
  | none =>
    cases h
    rfl
  | some text =>
    cases hdigest : shaDigest text label with
    | error e =>
      rw [Option.mapM_some, hdigest] at h
      cases h
    | ok d =>
      rw [Option.mapM_some, hdigest] at h
      cases h
      exact shaDigest_eq_ok hdigest

theorem recordOutcome_change {id : String} {outcome : Outcome} {receipt : Option String}
    {state : ProcedureMemoryState}
    (h : recordOutcome platform world.state now id outcome receipt = .ok (p, some state)) :
    Change platform (.recordOutcome now id outcome receipt) world
      ⟨state, [.outcome p.id outcome (receipt.bind hex64?)] ++ world.log⟩ := by
  rw [recordOutcome, bind_eq_ok] at h
  obtain ⟨uuid, -, h⟩ := h
  rw [bind_eq_ok] at h
  obtain ⟨digest, hdigest, h⟩ := h
  rw [receipt_eq hdigest]
  split at h
  · cases h
  · next existing hfind =>
    rw [bind_eq_ok] at h
    obtain ⟨_, -, h⟩ := h
    split at h
    · cases h
    · next hnew =>
      simp only [bind_eq_ok] at h
      obtain ⟨_, -, updatedAt, -, written, hwrite, h⟩ := h
      cases h
      obtain rfl := write_eq_ok hwrite
      let b := countOutcome existing outcome digest updatedAt
      obtain ⟨before, after, hbefore, hafter⟩ := updateFirst_split (b := b) hfind
      refine .replaced before after _ existing b _ hbefore (hafter ▸ List.Perm.refl _) rfl ?_
      refine .counted outcome digest ?_ rfl rfl rfl rfl
      intro d hd hin
      exact hnew ⟨d, hd, hin⟩

theorem invalidate_change {id reason : String} {state : ProcedureMemoryState}
    (h : invalidate platform world.state now id reason = .ok (p, some state)) :
    Change platform (.invalidate now id reason) world ⟨state, [] ++ world.log⟩ := by
  rw [invalidate, bind_eq_ok] at h
  obtain ⟨uuid, -, h⟩ := h
  rw [bind_eq_ok] at h
  obtain ⟨text, -, h⟩ := h
  split at h
  · cases h
  · next existing hfind =>
    rw [bind_eq_ok] at h
    obtain ⟨updatedAt, -, h⟩ := h
    dsimp only at h
    rw [bind_eq_ok] at h
    obtain ⟨written, hwrite, h⟩ := h
    cases h
    obtain rfl := write_eq_ok hwrite
    let b : VerifiedProcedure := { existing with
      status := .invalidated
      invalidatedAt := some updatedAt
      invalidationReason := some text
      updatedAt }
    obtain ⟨before, after, hbefore, hafter⟩ := updateFirst_split (b := b) hfind
    exact .replaced before after _ existing b _ hbefore (hafter ▸ List.Perm.refl _) rfl
      (.kept rfl rfl rfl rfl)

theorem after_change (platform : Platform) (world : World) (call : Call) :
    Change platform call world (world.after platform call) := by
  rw [World.after]
  split
  · next p state h =>
    cases call with
    | recordVerified now id input => exact recordVerified_change h
    | recordOutcome now id outcome receipt => exact recordOutcome_change h
    | invalidate now id reason => exact invalidate_change h
  · exact .unchanged

-- ===== holding

/-- A property of each procedure and its events; identifiers are
distinct. -/
structure Holds (T : List Event → VerifiedProcedure → Prop) (world : World) : Prop where
  distinct : (world.state.procedures.map VerifiedProcedure.id).Nodup
  known : ∀ p ∈ world.state.procedures, eventsOf world.log p.id ≠ []
  each : ∀ p ∈ world.state.procedures, T (eventsOf world.log p.id) p

theorem eventsOf_append (events log : List Event) (id : Uuid) :
    eventsOf (events ++ log) id = eventsOf events id ++ eventsOf log id :=
  List.filter_append ..

theorem eventsOf_own {events : List Event} {id : Uuid} (h : ∀ event ∈ events, event.id = id) :
    eventsOf events id = events :=
  List.filter_eq_self.2 fun event hin => beq_iff_eq.2 (h event hin)

theorem eventsOf_other {events : List Event} {id : Uuid} (h : ∀ event ∈ events, event.id ≠ id) :
    eventsOf events id = [] :=
  List.filter_eq_nil_iff.2 fun event hin heq => h event hin (beq_iff_eq.1 heq)

variable {b : VerifiedProcedure}

theorem Moved.ids {call : Call} {a : VerifiedProcedure} {events : List Event}
    (h : Moved platform call a b events) : ∀ event ∈ events, event.id = b.id := by
  cases h with
  | recaptured => simp [Event.id]
  | counted => simp [Event.id]
  | kept => simp

theorem Holds.after {T : List Event → VerifiedProcedure → Prop} {call : Call}
    (h : Holds T world) (hfresh : Fresh world call)
    (hmoved : ∀ a ∈ world.state.procedures, ∀ b events, b.id = a.id →
      Moved platform call a b events → T (eventsOf world.log a.id) a →
      T (events ++ eventsOf world.log a.id) b)
    (hadded : ∀ b : VerifiedProcedure, b.version = 1 → b.verifiedRuns = 1 → b.receipts = [] →
      T [.captured b.id b.pair] b) : Holds T (world.after platform call) := by
  generalize hworld : world.after platform call = world'
  have hchange : Change platform call world world' := hworld ▸ after_change platform world call
  cases hchange with
  | unchanged => exact h
  | replaced before after procedures a b events hbefore hafter hid hmove =>
    have hids : (before ++ b :: after).map VerifiedProcedure.id
        = world.state.procedures.map VerifiedProcedure.id := by
      rw [hbefore, List.map_append, List.map_append, List.map_cons, List.map_cons, hid]
    have hdistinct : ((before ++ b :: after).map VerifiedProcedure.id).Nodup := hids ▸ h.distinct
    have ha : a ∈ world.state.procedures := by
      rw [hbefore]
      exact List.mem_append_right _ (List.mem_cons_self ..)
    have hcases : ∀ p ∈ procedures, p = b
        ∨ p ∈ world.state.procedures ∧ eventsOf (events ++ world.log) p.id = eventsOf world.log p.id := by
      intro p hp
      have hin := hafter.subset hp
      by_cases hpb : p = b
      · exact .inl hpb
      · have hold : p ∈ world.state.procedures := by
          rw [hbefore]
          rcases List.mem_append.1 hin with hin | hin
          · exact List.mem_append_left _ hin
          · rcases List.mem_cons.1 hin with rfl | hin
            · exact absurd rfl hpb
            · exact List.mem_append_right _ (List.mem_cons_of_mem _ hin)
        have hne : b.id ≠ p.id := by
          intro heq
          exact hpb (List.inj_on_of_nodup_map hdistinct hin
            (List.mem_append_right _ (List.mem_cons_self ..)) heq.symm)
        refine .inr ⟨hold, ?_⟩
        rw [eventsOf_append]
        have hother : eventsOf events p.id = [] := eventsOf_other fun event hevent heq =>
          hne ((hmove.ids event hevent).symm.trans heq)
        rw [hother, List.nil_append]
    have hown : eventsOf (events ++ world.log) b.id = events ++ eventsOf world.log a.id := by
      rw [eventsOf_append, eventsOf_own hmove.ids, hid]
    refine ⟨(hafter.map _).nodup_iff.2 hdistinct, ?_, ?_⟩
    · intro p hp
      rcases hcases p hp with rfl | ⟨hold, hsame⟩
      · rw [hown]
        exact fun hnil => h.known a ha (List.append_eq_nil_iff.1 hnil).2
      · rw [hsame]
        exact h.known p hold
    · intro p hp
      rcases hcases p hp with rfl | ⟨hold, hsame⟩
      · rw [hown]
        exact hmoved a ha p events hid hmove (h.each a ha)
      · rw [hsame]
        exact h.each p hold
  | added now input kept procedures b hcall hkept hdistinct hafter hversion hruns hreceipts =>
    subst hcall
    have hlog : eventsOf world.log b.id = [] := eventsOf_other hfresh
    have hne : ∀ p ∈ kept, b.id ≠ p.id := by
      intro p hp heq
      exact h.known p (hkept p hp) (heq ▸ hlog)
    have hcases : ∀ p ∈ procedures, p = b ∨ p ∈ world.state.procedures
          ∧ eventsOf ([.captured b.id b.pair] ++ world.log) p.id = eventsOf world.log p.id := by
      intro p hp
      rcases List.mem_cons.1 (hafter.subset hp) with rfl | hin
      · exact .inl rfl
      · refine .inr ⟨hkept p hin, ?_⟩
        rw [eventsOf_append, eventsOf_other, List.nil_append]
        intro event hevent heq
        rw [List.mem_singleton.1 hevent] at heq
        exact hne p hin heq
    have hown : eventsOf ([.captured b.id b.pair] ++ world.log) b.id = [.captured b.id b.pair] := by
      rw [eventsOf_append, hlog, List.append_nil, eventsOf_own]
      intro event hevent
      rw [List.mem_singleton.1 hevent]
      rfl
    refine ⟨?_, ?_, ?_⟩
    · rw [(hafter.map _).nodup_iff, List.map_cons, List.nodup_cons]
      refine ⟨?_, hdistinct h.distinct⟩
      intro hin
      obtain ⟨p, hp, heq⟩ := List.mem_map.1 hin
      exact hne p hp heq.symm
    · intro p hp
      rcases hcases p hp with rfl | ⟨hold, hsame⟩
      · rw [hown]
        exact List.cons_ne_nil _ _
      · rw [hsame]
        exact h.known p hold
    · intro p hp
      rcases hcases p hp with rfl | ⟨hold, hsame⟩
      · rw [hown]
        exact hadded p hversion hruns hreceipts
      · rw [hsame]
        exact h.each p hold

-- ===== counters

/-- The counters of a procedure are those of its events. -/
structure Tracked (events : List Event) (p : VerifiedProcedure) : Prop where
  version : p.version = (pairs events).length
  latest : (pairs events).head? = some p.pair
  changed : (pairs events).IsChain (· ≠ ·)
  runs : p.verifiedRuns
    = (pairs events).length + (verifiedReceipts events).length + receiptlessRuns events
  retained : p.receipts = (receipts events).reverse
  once : (receipts events).Nodup

theorem tracked_capture (hversion : b.version = 1) (hruns : b.verifiedRuns = 1)
    (hreceipts : b.receipts = []) : Tracked [.captured b.id b.pair] b :=
  ⟨hversion, rfl, List.IsChain.singleton _, hruns, hreceipts, List.nodup_nil⟩

theorem Tracked.moved {call : Call} {a : VerifiedProcedure} {events old : List Event}
    (h : Tracked old a) (hmoved : Moved platform call a b events) : Tracked (events ++ old) b := by
  cases hmoved with
  | recaptured now id input normalized hcall hinput hkey hscope hpair hnew hversion hruns hreceipts =>
    refine ⟨?_, rfl, ?_, ?_, hreceipts.trans h.retained, h.once⟩
    · rw [hversion, h.version]
      rfl
    · show (b.pair :: pairs old).IsChain (· ≠ ·)
      cases hpairs : pairs old with
      | nil => exact List.IsChain.singleton _
      | cons pair rest =>
        have hlatest := h.latest
        rw [hpairs, List.head?_cons, Option.some.injEq] at hlatest
        refine List.IsChain.cons_cons ?_ (hpairs ▸ h.changed)
        rw [hlatest]
        exact hnew.symm
    · have hold := h.runs
      show b.verifiedRuns = (pairs old).length + 1 + (verifiedReceipts old).length
        + receiptlessRuns old
      omega
  | counted outcome receipt hnew hpair hversion hruns hreceipts =>
    have hold := h.runs
    refine ⟨hversion.trans h.version, hpair ▸ h.latest, h.changed, ?_, ?_, ?_⟩
    · cases outcome with
      | failed =>
        rw [hruns]
        show a.verifiedRuns + 0 = (pairs old).length + (verifiedReceipts old).length
          + List.countP Event.receiptless (.outcome b.id .failed receipt :: old)
        rw [List.countP_cons_of_neg Bool.false_ne_true]
        exact hold
      | verified =>
        cases receipt with
        | none =>
          rw [hruns, if_pos rfl]
          show a.verifiedRuns + 1 = (pairs old).length + (verifiedReceipts old).length
            + List.countP Event.receiptless (.outcome b.id .verified none :: old)
          rw [List.countP_cons_of_pos (by rfl)]
          unfold receiptlessRuns at hold
          omega
        | some digest =>
          rw [hruns, if_pos rfl]
          show a.verifiedRuns + 1 = (pairs old).length + ((verifiedReceipts old).length + 1)
            + List.countP Event.receiptless (.outcome b.id .verified (some digest) :: old)
          rw [List.countP_cons_of_neg Bool.false_ne_true]
          unfold receiptlessRuns at hold
          omega
    · rw [hreceipts, h.retained]
      cases receipt with
      | none => exact List.append_nil _
      | some digest => exact (List.reverse_cons ..).symm
    · cases receipt with
      | none => exact h.once
      | some digest =>
        show (digest :: receipts old).Nodup
        rw [List.nodup_cons]
        refine ⟨?_, h.once⟩
        have hnot := hnew digest rfl
        rwa [h.retained, List.mem_reverse] at hnot
  | kept hpair hversion hruns hreceipts =>
    exact ⟨hversion.trans h.version, hpair ▸ h.latest, h.changed, hruns.trans h.runs,
      hreceipts.trans h.retained, h.once⟩

theorem holds_tracked {calls : List Call}
    (hrun : Run (Where (Steps platform) Fresh) empty calls world) : Holds Tracked world := by
  refine hrun.invariant ⟨List.nodup_nil, ?_, ?_⟩ ?_
  · exact fun p hp => (nomatch hp)
  · exact fun p hp => (nomatch hp)
  · rintro world world' call hinv ⟨rfl, hfresh⟩
    refine hinv.after hfresh ?_ ?_
    · intro a _ b events _ hmoved htracked
      exact htracked.moved hmoved
    · intro b hversion hruns hreceipts
      exact tracked_capture hversion hruns hreceipts

theorem holds_nodup {calls : List Call}
    (hrun : Run (Where (Steps platform) fun world call => Fresh world call
      ∧ NewPair platform world call) empty calls world) :
    Holds (fun events _ => (pairs events).Nodup) world := by
  refine hrun.invariant ⟨List.nodup_nil, ?_, ?_⟩ ?_
  · exact fun p hp => (nomatch hp)
  · exact fun p hp => (nomatch hp)
  · rintro world world' call hinv ⟨rfl, hfresh, hpair⟩
    refine hinv.after hfresh ?_ ?_
    · intro a ha b events hid hmoved hnodup
      cases hmoved with
      | recaptured now id input normalized hcall hinput hkey hscope hsame hnew =>
        subst hcall
        show (b.pair :: pairs (eventsOf world.log a.id)).Nodup
        rw [List.nodup_cons, hsame]
        rw [hsame] at hnew
        exact ⟨hpair normalized a hinput ha hkey hscope hnew, hnodup⟩
      | counted => exact hnodup
      | kept => exact hnodup
    · intro b _ _ _
      exact List.nodup_singleton _

-- ===== evidence

theorem verifiedReceipts_sublist (events : List Event) :
    (verifiedReceipts events).Sublist (receipts events) := by
  induction events with
  | nil => exact List.Sublist.refl _
  | cons event events ih =>
    cases event with
    | captured id pair => exact ih
    | outcome id outcome receipt =>
      cases receipt with
      | none =>
        cases outcome with
        | verified => exact ih
        | failed => exact ih
      | some digest =>
        cases outcome with
        | verified => exact ih.cons_cons digest
        | failed => exact ih.cons digest

theorem two_pairs {events : List Event} (hchanged : (pairs events).IsChain (· ≠ ·))
    (h : 2 ≤ (pairs events).length) : 2 ≤ (pairs events).dedup.length := by
  cases hpairs : pairs events with
  | nil =>
    rw [hpairs] at h
    cases h
  | cons first rest =>
    cases rest with
    | nil =>
      rw [hpairs, List.length_singleton] at h
      omega
    | cons second rest =>
      rw [hpairs] at hchanged
      have hne : first ≠ second := (List.isChain_cons_cons.1 hchanged).1
      have hnodup : [first, second].Nodup := by simp [hne]
      have hsub : [first, second].Subperm (first :: second :: rest).dedup := by
        apply List.subperm_of_subset hnodup
        intro pair hin
        rw [List.mem_dedup]
        simp only [List.mem_cons, List.not_mem_nil, or_false] at hin ⊢
        rcases hin with rfl | rfl
        · exact .inl rfl
        · exact .inr (.inl rfl)
      exact hsub.length_le

theorem dedup_length_pos {α : Type} [DecidableEq α] {l : List α} (h : l ≠ []) :
    0 < l.dedup.length := by
  apply List.length_pos_of_ne_nil
  intro hnil
  exact h ((List.dedup_eq_nil l).1 hnil)

/-- The procedure was captured once, and the receipts it retains are all of
failed outcomes. -/
def OnlyFailed (events : List Event) (p : VerifiedProcedure) : Prop :=
  p.version = 1 ∧ p.receipts ≠ [] ∧ ∀ digest ∈ p.receipts, digest ∉ verifiedReceipts events

theorem Tracked.evidence_iff {events : List Event} (h : Tracked events p)
    (hretained : 2 ≤ p.version ∨ p.receipts ≠ []) :
    2 ≤ evidence events ↔ ¬ OnlyFailed events p := by
  have hpairs : pairs events ≠ [] := by
    intro hnil
    have hlatest := h.latest
    rw [hnil] at hlatest
    cases hlatest
  constructor
  · rintro htwo ⟨hone, -, hfailed⟩
    have hnone : verifiedReceipts events = [] := by
      rw [List.eq_nil_iff_forall_not_mem]
      intro digest hin
      apply hfailed digest _ hin
      rw [h.retained, List.mem_reverse]
      exact (verifiedReceipts_sublist events).subset hin
    have hlength := (List.dedup_sublist (pairs events)).length_le
    rw [evidence, hnone, List.dedup_nil, List.length_nil] at htwo
    have hversion := h.version
    omega
  · intro hnot
    rw [evidence]
    by_cases hversion : 2 ≤ p.version
    · have htwo := two_pairs h.changed (h.version ▸ hversion)
      omega
    · have hpos := List.length_pos_of_ne_nil hpairs
      have hone : p.version = 1 := by
        have hlength := h.version
        omega
      have hsome : verifiedReceipts events ≠ [] := by
        intro hnil
        apply hnot
        refine ⟨hone, hretained.resolve_left hversion, ?_⟩
        intro digest _ hin
        rw [hnil] at hin
        cases hin
      have hfirst := dedup_length_pos hpairs
      have hsecond := dedup_length_pos hsome
      omega

theorem retained_of_repeat (h : hasIndependentRepeat p = true) :
    2 ≤ p.version ∨ p.receipts ≠ [] := by
  rw [hasIndependentRepeat] at h
  split at h
  · cases h
  · rw [Bool.or_eq_true, decide_eq_true_eq, decide_eq_true_eq] at h
    rcases h with hversion | hreceipts
    · exact .inl hversion
    · exact .inr (List.ne_nil_of_length_pos hreceipts)

theorem findReusable_mem {state : ProcedureMemoryState} {input : ReuseInput}
    {candidates : List ProcedureCandidate}
    (h : findReusable platform state now input = .ok candidates)
    {candidate : ProcedureCandidate} (hin : candidate ∈ candidates) :
    candidate.procedure ∈ state.procedures ∧ hasIndependentRepeat candidate.procedure = true := by
  rw [findReusable] at h
  simp only [bind_eq_ok] at h
  obtain ⟨_, -, _, -, _, -, _, -, _, -, h⟩ := h
  cases h
  have hmem := (List.perm_insertionSort _ _).subset (List.mem_of_mem_take hin)
  obtain ⟨p, hp, rfl⟩ := List.mem_map.1 hmem
  rw [List.mem_filter, decide_eq_true_eq] at hp
  exact ⟨hp.1, hp.2.2.1⟩

/-- The runs of a procedure are within its evidence where no call records
an earlier capture again; and a procedure that is answered for reuse has two
pieces of evidence unless it was captured once and retains receipts of
failed outcomes only. -/
theorem independent_evidence (platform : Platform) (calls : List Call) (world : World) :
    (Run (Where (Steps platform) fun world call => Fresh world call
        ∧ NewPair platform world call) empty calls world →
      ∀ p ∈ world.state.procedures, p.verifiedRuns
        ≤ evidence (eventsOf world.log p.id) + receiptlessRuns (eventsOf world.log p.id))
    ∧ (Run (Where (Steps platform) Fresh) empty calls world →
      ∀ now input candidates, findReusable platform world.state now input = .ok candidates →
        ∀ candidate ∈ candidates, (2 ≤ evidence (eventsOf world.log candidate.procedure.id)
            ↔ ¬ OnlyFailed (eventsOf world.log candidate.procedure.id) candidate.procedure)) := by
  constructor
  · intro hrun p hp
    have htracked := (holds_tracked (hrun.mono fun h => ⟨h.1, h.2.1⟩)).each p hp
    have hnodup := (holds_nodup hrun).each p hp
    have hreceipts := (verifiedReceipts_sublist _).nodup htracked.once
    rw [evidence, hnodup.dedup, hreceipts.dedup]
    exact htracked.runs.le
  · intro hrun now input candidates hfind candidate hin
    obtain ⟨hp, hrepeat⟩ := findReusable_mem hfind hin
    exact ((holds_tracked hrun).each _ hp).evidence_iff (retained_of_repeat hrepeat)

-- ===== samples

/-- A platform that compares texts by code units and writes every file. -/
def plainPlatform : Platform where
  isoText _ := ""
  localeCompare a b := if Json.keyLe a b then (if a = b then 0 else -1) else 1
  fits _ := true

def digestOf (c : Char)
    (h : matchesClasses (List.replicate 64 isHex) (List.replicate 64 c) = true) : Hex64 :=
  ⟨String.ofList (List.replicate 64 c), by rw [String.toList_ofList]; exact h⟩

def digestA : Hex64 := digestOf 'a' (by decide)
def digestB : Hex64 := digestOf 'b' (by decide)
def evidenceDigest : Hex64 := digestOf 'e' (by decide)

def procedureId : Uuid := ⟨"00000000-0000-4000-8000-000000000000", by decide⟩
def otherId : Uuid := ⟨"00000000-0000-4000-8000-000000000001", by decide⟩

def instantZero : Instant := ⟨0, zero_instant⟩
def thirtyDays : Instant := ⟨2592000000, by decide⟩

def plainInput (digest : Hex64) : ProcedureInput where
  key := "build"
  title := "Build"
  objectiveKind := "build"
  scopeKey := "repo"
  steps := [{ capability := "shell", risk := "read", summary := "make" }]
  assumptions := []
  resources := none
  verificationDigest := digest.val
  verifierEvidenceDigest := evidenceDigest.val
  ttlMs := none

def plainNormalized (digest : Hex64) : NormalizedProcedure where
  key := "build"
  title := "Build"
  objectiveKind := "build"
  scopeKey := "repo"
  steps := [{ capability := "shell", risk := .read, summary := "make" }]
  assumptions := []
  resources := []
  verificationDigest := digest
  verifierEvidenceDigest := evidenceDigest
  ttlMs := 2592000000

theorem shaDigest_val (digest : Hex64) (label : String) : shaDigest digest.val label = .ok digest := by
  rw [shaDigest, hex64_val]

theorem plain_normalized (digest : Hex64) :
    normalizeProcedureInput plainPlatform (plainInput digest) = .ok (plainNormalized digest) := by
  have hsteps : normalizeSteps (plainInput digest).steps = .ok (plainNormalized digest).steps := rfl
  have hassumptions : normalizeAssumptions plainPlatform (plainInput digest).assumptions = .ok [] :=
    rfl
  have hkey : boundedKey "build" "key" = .ok "build" := toOption_eq_some.1 (by decide)
  have htitle : boundedText "Build" 4096 "title" = .ok "Build" :=
    toOption_eq_some.1 (by decide)
  have hkind : boundedKey "build" "objectiveKind" = .ok "build" :=
    toOption_eq_some.1 (by decide)
  have hscope : boundedContext "repo" "scopeKey" = .ok "repo" :=
    toOption_eq_some.1 (by decide)
  have hdigest : shaDigest (plainInput digest).verificationDigest "verificationDigest" = .ok digest :=
    shaDigest_val ..
  have hevidence : shaDigest (plainInput digest).verifierEvidenceDigest "verifierEvidenceDigest"
      = .ok evidenceDigest := shaDigest_val ..
  rw [normalizeProcedureInput, hsteps, hassumptions, hdigest, hevidence]
  dsimp only [plainInput]
  rw [hkey, htitle, hkind, hscope]
  rfl

def captureOf (id : Uuid) (digest : Hex64) : Call :=
  .recordVerified (some instantZero) id (plainInput digest)

def firstCapture (digest : Hex64) : VerifiedProcedure :=
  capture procedureId (plainNormalized digest) instantZero thirtyDays

def nextCapture (p : VerifiedProcedure) (digest : Hex64) : VerifiedProcedure :=
  recapture p (plainNormalized digest) instantZero thirtyDays

def holding (p : VerifiedProcedure) : ProcedureMemoryState := ⟨[p]⟩

theorem write_plain {state : ProcedureMemoryState}
    (h : (validateState plainPlatform state).toOption.isSome = true) :
    write plainPlatform state = .ok state := by
  cases hvalid : validateState plainPlatform state with
  | error e =>
    rw [hvalid] at h
    cases h
  | ok validated =>
    rw [write, hvalid]
    rfl

theorem after_of_perform {call : Call} {state : ProcedureMemoryState}
    (h : call.perform platform world.state = .ok (p, some state)) :
    world.after platform call = ⟨state, call.events p ++ world.log⟩ := by
  rw [World.after, h]

theorem thirtyDays_later : instantZero.later 2592000000 = .ok thirtyDays := by
  rw [Instant.later, dif_pos (by decide)]
  rfl

theorem after_firstCapture (digest : Hex64)
    (h : (validateState plainPlatform (holding (firstCapture digest))).toOption.isSome = true) :
    empty.after plainPlatform (captureOf procedureId digest)
    = ⟨holding (firstCapture digest), [.captured procedureId (firstCapture digest).pair]⟩ := by
  apply after_of_perform (p := firstCapture digest)
  show recordVerified plainPlatform ⟨[]⟩ (some instantZero) procedureId (plainInput digest) = _
  rw [recordVerified, plain_normalized, ok_bind]
  show (instantZero.later 2592000000 >>= fun expiresAt =>
    write plainPlatform (holding (capture procedureId (plainNormalized digest) instantZero expiresAt))
      >>= fun written =>
        pure (capture procedureId (plainNormalized digest) instantZero expiresAt, some written)) = _
  rw [thirtyDays_later, ok_bind]
  show (write plainPlatform (holding (firstCapture digest)) >>= fun written =>
    pure (firstCapture digest, some written)) = _
  rw [write_plain h]
  rfl

theorem after_nextCapture (id : Uuid) (p : VerifiedProcedure) (log : List Event) (digest : Hex64)
    (hkey : p.key = "build") (hscope : p.scopeKey = "repo") (hid : p.id = procedureId)
    (hne : p.verificationDigest ≠ digest)
    (h : (validateState plainPlatform (holding (nextCapture p digest))).toOption.isSome = true) :
    World.after plainPlatform ⟨holding p, log⟩ (captureOf id digest)
    = ⟨holding (nextCapture p digest), .captured procedureId (nextCapture p digest).pair :: log⟩ := by
  have hfound : findIdentity "build" "repo" p = true := by
    rw [findIdentity, hkey, hscope]
    rfl
  have hperform : (captureOf id digest).perform plainPlatform (holding p)
      = .ok (nextCapture p digest, some (holding (nextCapture p digest))) := by
    show recordVerified plainPlatform ⟨[p]⟩ (some instantZero) id (plainInput digest) = _
    have hfind : [p].find? (findIdentity "build" "repo") = some p := by
      rw [List.find?_cons, hfound]
    have hwritten : updateFirst (findIdentity "build" "repo") (fun _ => nextCapture p digest) [p]
        = [nextCapture p digest] := by
      rw [updateFirst, if_pos hfound]
    have hpair : ¬ (p.verificationDigest = (plainNormalized digest).verificationDigest
        ∧ p.verifierEvidenceDigest = (plainNormalized digest).verifierEvidenceDigest) :=
      fun heq => hne heq.1
    have hlater : instantZero.later (plainNormalized digest).ttlMs = .ok thirtyDays :=
      thirtyDays_later
    have hnow : toISOString (some instantZero) = .ok instantZero := rfl
    rw [recordVerified, plain_normalized, ok_bind]
    dsimp only
    rw [show [p].find? (findIdentity (plainNormalized digest).key (plainNormalized digest).scopeKey)
      = some p from hfind]
    dsimp only
    rw [if_neg hpair]
    rw [hnow, ok_bind, hlater, ok_bind]
    show (write plainPlatform ⟨sortProcedures plainPlatform
      (updateFirst (findIdentity "build" "repo") (fun _ => nextCapture p digest) [p])⟩ >>= fun written =>
        pure (nextCapture p digest, some written)) = _
    rw [hwritten]
    show (write plainPlatform (holding (nextCapture p digest)) >>= fun written =>
      pure (nextCapture p digest, some written)) = _
    rw [write_plain h]
    rfl
  rw [after_of_perform hperform]
  show World.mk _ ([.captured (nextCapture p digest).id _] ++ log) = _
  rw [show (nextCapture p digest).id = procedureId from hid]
  rfl

/-- Two captures of two pairs: the runs are within the evidence. -/
theorem independent_evidence_sample :
    let world := (empty.after plainPlatform (captureOf procedureId digestA)).after plainPlatform
      (captureOf otherId digestB)
    (∀ p ∈ world.state.procedures, p.verifiedRuns
      ≤ evidence (eventsOf world.log p.id) + receiptlessRuns (eventsOf world.log p.id))
    ∧ ∀ now input candidates, findReusable plainPlatform world.state now input = .ok candidates →
        ∀ candidate ∈ candidates, (2 ≤ evidence (eventsOf world.log candidate.procedure.id)
            ↔ ¬ OnlyFailed (eventsOf world.log candidate.procedure.id) candidate.procedure) := by
  intro world
  have hrun : Run (Where (Steps plainPlatform) fun world call => Fresh world call
      ∧ NewPair plainPlatform world call) empty
      ([captureOf procedureId digestA] ++ [captureOf otherId digestB]) world := by
    have hfirst : Run (Where (Steps plainPlatform) fun world call => Fresh world call
        ∧ NewPair plainPlatform world call) empty ([] ++ [captureOf procedureId digestA])
        (empty.after plainPlatform (captureOf procedureId digestA)) := by
      refine .snoc .nil ⟨rfl, ?_, ?_⟩
      · exact fun event hin => (nomatch hin)
      · exact fun normalized existing _ hin => (nomatch hin)
    refine .snoc hfirst ⟨rfl, ?_⟩
    · rw [after_firstCapture digestA (by decide)]
      refine ⟨?_, ?_⟩
      · intro event hin
        rw [List.mem_singleton.1 hin]
        decide
      · intro normalized existing hinput hin _ _ _
        rw [plain_normalized] at hinput
        cases hinput
        rw [List.mem_singleton.1 hin]
        decide
  obtain ⟨hruns, hreuse⟩ := independent_evidence plainPlatform
    ([captureOf procedureId digestA] ++ [captureOf otherId digestB]) world
  exact ⟨hruns hrun, hreuse (hrun.mono fun h => ⟨h.1, h.2.1⟩)⟩

/-- Three captures of two pairs of digests count three runs. -/
theorem alternating_captures_count :
    let world := ((empty.after plainPlatform (captureOf procedureId digestA)).after plainPlatform
      (captureOf otherId digestB)).after plainPlatform (captureOf otherId digestA)
    ∃ p ∈ world.state.procedures, ¬ p.verifiedRuns
      ≤ evidence (eventsOf world.log p.id) + receiptlessRuns (eventsOf world.log p.id) := by
  intro world
  have hworld : world = ⟨holding (nextCapture (nextCapture (firstCapture digestA) digestB) digestA),
      [.captured procedureId (firstCapture digestA).pair,
        .captured procedureId (nextCapture (firstCapture digestA) digestB).pair,
        .captured procedureId (firstCapture digestA).pair]⟩ := by
    show ((empty.after plainPlatform (captureOf procedureId digestA)).after plainPlatform
      (captureOf otherId digestB)).after plainPlatform (captureOf otherId digestA) = _
    rw [after_firstCapture digestA (by decide),
      after_nextCapture _ _ _ digestB rfl rfl rfl (by decide) (by decide),
      after_nextCapture _ _ _ digestA rfl rfl rfl (by decide) (by decide)]
    rfl
  rw [hworld]
  exact ⟨_, List.mem_singleton_self _, by decide⟩

end OperatorRuntime.ProcedureMemory
