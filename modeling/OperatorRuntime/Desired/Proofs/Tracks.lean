/-
The log tells where a contract stands. `Standing` is what the controller
decides by; `Tracks` says that the tenure of a contract accounts for it,
and one lemma for each event carries it on.

What the log itself has to satisfy is `Lawful`: operation ids come from
marks, a mark has all lower ones of its contract beneath it, and every
submission answers the reservation just before it.
-/
import OperatorRuntime.Desired.Controller
import OperatorRuntime.Lib.Passes

namespace OperatorRuntime.Desired

open Lib

variable {platform : Platform} {log : List Event} {id : Uuid}

-- ===== the log

variable {event : Event}

theorem tenure_of_ne (h : event.contract ≠ id) : tenure id (event :: log) = tenure id log := by
  cases event with
  | created id' policy => exact if_neg h
  | paused id' => exact if_neg h
  | resumed id' => exact if_neg h
  | closed id' outcome byReconcile => exact if_neg h
  | healthy id' => exact if_neg h
  | reserved id' digest operationId startedAt => exact if_neg h
  | submitted id' request => exact if_neg h

theorem policyOf_of_ne (h : event.contract ≠ id) :
    policyOf id (event :: log) = policyOf id log := by
  cases event with
  | created id' policy => exact if_neg h
  | paused id' => rfl
  | resumed id' => rfl
  | closed id' outcome byReconcile => rfl
  | healthy id' => rfl
  | reserved id' digest operationId startedAt => rfl
  | submitted id' request => rfl

theorem marks_of_ne (h : event.contract ≠ id) : marks id (event :: log) = marks id log := by
  cases event with
  | created id' policy => rfl
  | paused id' => rfl
  | resumed id' => rfl
  | closed id' outcome byReconcile => rfl
  | healthy id' => rfl
  | reserved id' digest operationId startedAt => exact if_neg h
  | submitted id' request => rfl

theorem tenure_own (h : ∀ policy, event ≠ .created event.contract policy) :
    tenure event.contract (event :: log) = event :: tenure event.contract log := by
  cases event with
  | created id' policy => exact absurd rfl (h policy)
  | paused id' => exact if_pos rfl
  | resumed id' => exact if_pos rfl
  | closed id' outcome byReconcile => exact if_pos rfl
  | healthy id' => exact if_pos rfl
  | reserved id' digest operationId startedAt => exact if_pos rfl
  | submitted id' request => exact if_pos rfl

-- ===== standing

/-- What the controller decides by: the starts of the history, whether the
contract is paused and whether a remediation is under way. -/
structure Standing where
  id : Uuid
  policy : DesiredStatePolicy
  digest : Hex64
  paused : Bool
  active : Bool
  failures : Nat
  times : List Instant

def DesiredStateContract.standing (contract : DesiredStateContract) : Standing where
  id := contract.id
  policy := contract.policy
  digest := contract.contractDigest
  paused := contract.status == .paused
  active := contract.activeOperationId.isSome
  failures := contract.consecutiveFailures
  times := contract.remediationHistory.map (·.startedAt)

/-- The history kept after one more start. -/
def pushTime (times : List Instant) (now : Instant) : List Instant :=
  (times ++ [now]).drop ((times ++ [now]).length - maxHistory)

/-- The log accounts for where a contract stands. -/
structure Tracks (log : List Event) (s : Standing) : Prop where
  policy : policyOf s.id log = some s.policy
  paused : isPaused (tenure s.id log) = s.paused
  active : (starts (tenure s.id log)).length
    = closings (tenure s.id log) + if s.active then 1 else 0
  failures : failures (tenure s.id log) ≤ s.failures
  times : s.times = ((starts (tenure s.id log)).take maxHistory).reverse
  marked : ∀ n < (starts (tenure s.id log)).length, (s.digest, n) ∈ marks s.id log

variable {s : Standing}

theorem Tracks.frame (h : Tracks log s) (hne : event.contract ≠ s.id) :
    Tracks (event :: log) s where
  policy := (policyOf_of_ne hne).trans h.policy
  paused := (tenure_of_ne hne).symm ▸ h.paused
  active := (tenure_of_ne hne).symm ▸ h.active
  failures := (tenure_of_ne hne).symm ▸ h.failures
  times := (tenure_of_ne hne).symm ▸ h.times
  marked := by
    rw [tenure_of_ne hne, marks_of_ne hne]
    exact h.marked

theorem tracks_created (id : Uuid) (policy : DesiredStatePolicy) (digest : Hex64) (k : Nat) :
    Tracks (.created id policy :: log)
      { id, policy, digest, paused := false, active := false, failures := k, times := [] } := by
  have htenure : tenure id (.created id policy :: log) = [] := if_pos rfl
  refine ⟨if_pos rfl, ?_, ?_, ?_, ?_, ?_⟩
  · rw [htenure]
    rfl
  · rw [htenure]
    rfl
  · rw [htenure]
    exact Nat.zero_le _
  · rw [htenure]
    rfl
  · rw [htenure]
    intro n hn
    cases hn

theorem Tracks.pause (h : Tracks log s) :
    Tracks (.paused s.id :: log) { s with paused := true } := by
  have htenure : tenure s.id (.paused s.id :: log) = .paused s.id :: tenure s.id log := if_pos rfl
  refine ⟨h.policy, ?_, ?_, ?_, ?_, ?_⟩
  · rw [htenure]
    rfl
  · rw [htenure]
    exact h.active
  · rw [htenure]
    exact h.failures
  · rw [htenure]
    exact h.times
  · rw [htenure]
    exact fun n hn => h.marked n hn

theorem Tracks.resume (h : Tracks log s) :
    Tracks (.resumed s.id :: log) { s with paused := false } := by
  have htenure : tenure s.id (.resumed s.id :: log) = .resumed s.id :: tenure s.id log :=
    if_pos rfl
  refine ⟨h.policy, ?_, ?_, ?_, ?_, ?_⟩
  · rw [htenure]
    rfl
  · rw [htenure]
    exact h.active
  · rw [htenure]
    exact h.failures
  · rw [htenure]
    exact h.times
  · rw [htenure]
    exact fun n hn => h.marked n hn

theorem Tracks.healthy (h : Tracks log s) (k : Nat) :
    Tracks (.healthy s.id :: log) { s with failures := k } := by
  have htenure : tenure s.id (.healthy s.id :: log) = .healthy s.id :: tenure s.id log :=
    if_pos rfl
  refine ⟨h.policy, ?_, ?_, ?_, ?_, ?_⟩
  · rw [htenure]
    exact h.paused
  · rw [htenure]
    exact h.active
  · rw [htenure]
    exact Nat.zero_le _
  · rw [htenure]
    exact h.times
  · rw [htenure]
    exact fun n hn => h.marked n hn

theorem Tracks.close (h : Tracks log s) (hactive : s.active = true)
    {outcome : RemediationOutcome} {byReconcile : Bool} {k : Nat}
    (hk : outcome = .verified ∨ (if byReconcile then s.failures + 1 else s.failures) ≤ k) :
    Tracks (.closed s.id outcome byReconcile :: log) { s with active := false, failures := k } := by
  have htenure : tenure s.id (.closed s.id outcome byReconcile :: log)
      = .closed s.id outcome byReconcile :: tenure s.id log := if_pos rfl
  refine ⟨h.policy, ?_, ?_, ?_, ?_, ?_⟩
  · rw [htenure]
    exact h.paused
  · rw [htenure]
    have hold := h.active
    rw [hactive] at hold
    exact hold
  · rw [htenure]
    have hold := h.failures
    cases outcome with
    | verified => exact Nat.zero_le _
    | failed =>
      rcases hk with hk | hk
      · cases hk
      · cases byReconcile with
        | true => exact le_trans (Nat.succ_le_succ hold) hk
        | false => exact le_trans hold hk
    | cancelled =>
      rcases hk with hk | hk
      · cases hk
      · cases byReconcile with
        | true => exact le_trans (Nat.succ_le_succ hold) hk
        | false => exact le_trans hold hk
  · rw [htenure]
    exact h.times
  · rw [htenure]
    exact fun n hn => h.marked n hn

theorem drop_take_reverse {α : Type} (l : List α) (a : α) (n : Nat) :
    ((l.take n).reverse ++ [a]).drop (((l.take n).reverse ++ [a]).length - n)
    = ((a :: l).take n).reverse := by
  rw [← List.reverse_cons, List.drop_reverse, List.length_reverse]
  congr 1
  cases n with
  | zero => simp
  | succ n =>
    have hcount : (a :: l.take (n + 1)).length - ((a :: l.take (n + 1)).length - (n + 1))
        = min (a :: l.take (n + 1)).length (n + 1) := by omega
    rw [hcount, Nat.min_comm, ← List.take_eq_take_min, List.take_succ_cons, List.take_succ_cons,
      List.take_take, Nat.min_eq_left (Nat.le_succ n)]

theorem pushTime_take (l : List Instant) (now : Instant) :
    pushTime (l.take maxHistory).reverse now = ((now :: l).take maxHistory).reverse :=
  drop_take_reverse l now maxHistory

theorem Tracks.reserve (h : Tracks log s) (hactive : s.active = false) (operationId : Uuid)
    (now : Instant) : Tracks (.reserved s.id s.digest operationId now :: log)
      { s with active := true, times := pushTime s.times now } := by
  have htenure : tenure s.id (.reserved s.id s.digest operationId now :: log)
      = .reserved s.id s.digest operationId now :: tenure s.id log := if_pos rfl
  refine ⟨h.policy, ?_, ?_, ?_, ?_, ?_⟩
  · rw [htenure]
    exact h.paused
  · rw [htenure]
    have hold := h.active
    rw [hactive] at hold
    show (starts (tenure s.id log)).length + 1 = closings (tenure s.id log) + 1
    rw [hold]
    rfl
  · rw [htenure]
    exact h.failures
  · rw [htenure]
    dsimp only
    rw [h.times, pushTime_take]
    rfl
  · rw [htenure]
    intro n hn
    have hmarks : marks s.id (.reserved s.id s.digest operationId now :: log)
        = (s.digest, (starts (tenure s.id log)).length) :: marks s.id log := if_pos rfl
    dsimp only
    rw [hmarks]
    rcases Nat.lt_succ_iff_lt_or_eq.1 hn with hlt | rfl
    · exact List.mem_cons_of_mem _ (h.marked n hlt)
    · exact List.mem_cons_self ..

-- ===== laws

/-- What is known of a remediation at its reservation: the limits, the
count of the newest starts of the day, and the policy and the starts kept. -/
structure Admitted (policy : DesiredStatePolicy) (now : Instant) (before : List Event) : Prop where
  limits : Limits policy now before
  recent : (((starts before).take maxHistory).countP fun t => isoDay t == isoDay now : Int)
    < policy.maxRemediationsPerDay

/-- A submission answers the reservation before it, which was admitted. -/
def Answers (id : Uuid) (request : SubmitRequest) (rest : List Event) : Prop :=
  ∃ digest now before policy, rest = .reserved id digest request.requestId now :: before
      ∧ policyOf id before = some policy ∧ Admitted policy now (tenure id before)

/-- What the log itself satisfies. -/
structure Lawful (platform : Platform) (log : List Event) : Prop where
  ids : ∀ id, reservedIds id log
    = (marks id log).map fun mark => platform.operationId (markText id mark)
  closed : ∀ id digest n, (digest, n + 1) ∈ marks id log → (digest, n) ∈ marks id log
  submitted : ∀ id, (submittedIds id log).Sublist (reservedIds id log)
  answers : ∀ id request rest, .submitted id request :: rest <:+ log → Answers id request rest

theorem lawful_nil : Lawful platform [] where
  ids := fun _ => rfl
  closed := fun _ _ _ h => (nomatch h)
  submitted := fun _ => List.Sublist.refl _
  answers := by
    intro id request rest h
    have := List.suffix_nil.1 h
    cases this

/-- Events that reserve and submit nothing. -/
def Event.quiet : Event → Bool
  | .reserved _ _ _ _ | .submitted _ _ => false
  | _ => true

theorem Lawful.quiet (h : Lawful platform log) (hquiet : event.quiet = true) :
    Lawful platform (event :: log) := by
  have hids : ∀ id, reservedIds id (event :: log) = reservedIds id log := by
    intro id
    cases event <;> first | rfl | cases hquiet
  have hmarks : ∀ id, marks id (event :: log) = marks id log := by
    intro id
    cases event <;> first | rfl | cases hquiet
  have hsubmitted : ∀ id, submittedIds id (event :: log) = submittedIds id log := by
    intro id
    cases event <;> first | rfl | cases hquiet
  refine ⟨?_, ?_, ?_, ?_⟩
  · intro id
    rw [hids, hmarks]
    exact h.ids id
  · intro id digest n
    rw [hmarks]
    exact h.closed id digest n
  · intro id
    rw [hids, hsubmitted]
    exact h.submitted id
  · intro id request rest hsuffix
    rcases List.suffix_cons_iff.1 hsuffix with heq | hsuffix
    · obtain ⟨rfl, -⟩ := List.cons.inj heq
      cases hquiet
    · exact h.answers id request rest hsuffix

theorem Lawful.reserve (h : Lawful platform log) (htracks : Tracks log s) (now : Instant) :
    Lawful platform (.reserved s.id s.digest
      (platform.operationId (remediationRequestText s.id s.digest s.times.length)) now :: log) := by
  have hlength : s.times.length = min (starts (tenure s.id log)).length maxHistory := by
    rw [htracks.times, List.length_reverse, List.length_take, Nat.min_comm]
  refine ⟨?_, ?_, ?_, ?_⟩
  · intro id
    rw [reservedIds, marks]
    by_cases hid : s.id = id
    · subst hid
      rw [if_pos rfl, if_pos rfl, List.map_cons, h.ids, markText, hlength]
    · rw [if_neg hid, if_neg hid]
      exact h.ids id
  · intro id digest n hmark
    rw [marks] at hmark ⊢
    by_cases hid : s.id = id
    · subst hid
      rw [if_pos rfl] at hmark ⊢
      rcases List.mem_cons.1 hmark with heq | hold
      · obtain ⟨rfl, hn⟩ := Prod.mk.inj heq
        exact List.mem_cons_of_mem _ (htracks.marked n (by omega))
      · exact List.mem_cons_of_mem _ (h.closed _ digest n hold)
    · rw [if_neg hid] at hmark ⊢
      exact h.closed id digest n hmark
  · intro id
    show (submittedIds id log).Sublist _
    rw [reservedIds]
    split
    · exact (h.submitted id).trans (List.sublist_cons_self ..)
    · exact h.submitted id
  · intro id request rest hsuffix
    rcases List.suffix_cons_iff.1 hsuffix with heq | hsuffix
    · cases heq
    · exact h.answers id request rest hsuffix

theorem Lawful.submit {digest : Hex64} {now : Instant} {request : SubmitRequest}
    {policy : DesiredStatePolicy} (hbefore : Lawful platform log)
    (h : Lawful platform (.reserved id digest request.requestId now :: log))
    (hpolicy : policyOf id log = some policy) (hadmitted : Admitted policy now (tenure id log)) :
    Lawful platform (.submitted id request
      :: .reserved id digest request.requestId now :: log) := by
  refine ⟨h.ids, h.closed, ?_, ?_⟩
  · intro id'
    rw [submittedIds]
    by_cases hid : id = id'
    · subst hid
      rw [if_pos rfl]
      have hids : reservedIds id (.reserved id digest request.requestId now :: log)
          = request.requestId :: reservedIds id log := if_pos rfl
      show List.Sublist _ (reservedIds id (.reserved id digest request.requestId now :: log))
      rw [hids]
      exact List.cons_sublist_cons.2 (hbefore.submitted id)
    · rw [if_neg hid]
      exact h.submitted id'
  · intro id' request' rest hsuffix
    rcases List.suffix_cons_iff.1 hsuffix with heq | hsuffix
    · obtain ⟨hevent, rfl⟩ := List.cons.inj heq
      obtain ⟨rfl, rfl⟩ := Event.submitted.inj hevent
      exact ⟨digest, now, log, policy, rfl, hpolicy, hadmitted⟩
    · exact h.answers id' request' rest hsuffix

/-
What the parts of an operation that do not write keep. `Inv` relates the
file to the log; such a part turns a contract into a `Change` that `Fits`
the log, and where `reconcile` remediates, the limits have admitted it.
-/

variable {env : Env} {file : DesiredStateFile} {c : DesiredStateContract}

-- ===== invariant

/-- The log accounts for every contract of the file. -/
structure Inv (platform : Platform) (file : DesiredStateFile) (log : List Event) : Prop where
  ids : (file.contracts.map (·.id)).Nodup
  tracks : ∀ c ∈ file.contracts, Tracks log c.standing
  lawful : Lawful platform log

/-- What holds between calls: every state written is a valid one. -/
structure Sound (platform : Platform) (w : World) : Prop where
  inv : Inv platform w.file w.log
  written : ∀ state ∈ w.written, validateState platform state = .ok ()

/-- What holds within a call that reads the time `now` and started with the
log `old`: it reserves at no other time. -/
structure WorldInv (platform : Platform) (now : Instant) (old : List Event) (w : World) : Prop
    extends Sound platform w where
  clock : w.clock = now.val
  since : ∃ new, w.log = new ++ old ∧ ∀ t ∈ starts new, t = now

theorem Tracks.frames {s : Standing} (h : Tracks log s) {events : List Event}
    (hne : ∀ event ∈ events, event.contract ≠ s.id) : Tracks (events.reverse ++ log) s := by
  induction events generalizing log with
  | nil => exact h
  | cons event events ih =>
    rw [List.reverse_cons, List.append_assoc]
    exact ih (h.frame (hne event (List.mem_cons_self ..)))
      fun e he => hne e (List.mem_cons_of_mem _ he)

theorem Lawful.quiets (h : Lawful platform log) {events : List Event}
    (hquiet : ∀ event ∈ events, event.quiet = true) : Lawful platform (events.reverse ++ log) := by
  induction events generalizing log with
  | nil => exact h
  | cons event events ih =>
    rw [List.reverse_cons, List.append_assoc]
    exact ih (h.quiet (hquiet event (List.mem_cons_self ..)))
      fun e he => hquiet e (List.mem_cons_of_mem _ he)

variable {c' : DesiredStateContract}

theorem Inv.put {events : List Event} (h : Inv platform file log) (hid : c'.id = c.id)
    (hown : ∀ event ∈ events, event.contract = c.id)
    (htracks : Tracks (events.reverse ++ log) c'.standing)
    (hlawful : Lawful platform (events.reverse ++ log)) :
    Inv platform (file.put c') (events.reverse ++ log) where
  ids := by
    rw [DesiredStateFile.put, map_updateFirst]
    · exact h.ids
    · intro a ha
      exact (beq_iff_eq.1 ha).symm
  tracks := by
    intro x hx
    rcases mem_updateFirst_key h.ids hx with ⟨hold, hne⟩ | ⟨_, -, -, rfl⟩
    · refine (h.tracks x hold).frames ?_
      intro event hevent heq
      exact hne (heq.symm.trans ((hown event hevent).trans hid.symm))
    · exact htracks
  lawful := hlawful

-- ===== changes

/-- The log accounts for a change of `c`. -/
structure Fits (log : List Event) (c : DesiredStateContract) (change : Change) : Prop where
  id : change.contract.id = c.id
  own : ∀ event ∈ change.events, event.contract = c.id
  quiet : ∀ event ∈ change.events, event.quiet = true
  tracks : Tracks (change.events.reverse ++ log) change.contract.standing

theorem Inv.fits (h : Inv platform file log) {change : Change} (hfits : Fits log c change) :
    Inv platform (file.put change.contract) (change.events.reverse ++ log) :=
  h.put hfits.id hfits.own hfits.tracks (h.lawful.quiets hfits.quiet)

theorem Tracks.still (h : Tracks log c.standing) (hs : c'.standing = c.standing) :
    Fits log c { contract := c', events := [] } where
  id := congrArg Standing.id hs
  own := fun _ he => (nomatch he)
  quiet := fun _ he => (nomatch he)
  tracks := by
    show Tracks log c'.standing
    rw [hs]
    exact h

theorem requireContract_ok {idInput : String} (h : requireContract file idInput = .ok c) :
    c ∈ file.contracts := by
  rw [requireContract, bind_eq_ok] at h
  obtain ⟨id, -, h⟩ := h
  split at h
  · next hfind =>
    rw [← Except.ok.inj h]
    exact List.mem_of_find?_eq_some hfind
  · exact absurd h fail_ne_ok

variable {operation : DigitalOperation} {now : Instant}

theorem closeHistory_ok (h : closeHistory c operation now = .ok c') :
    c'.standing = { c.standing with active := false } := by
  rw [closeHistory] at h
  simp only [bind_eq_ok, Except.ok.injEq] at h
  obtain ⟨_, -, rfl⟩ := h
  have htimes : ∀ p : RemediationEntry → Bool, (updateFirst p (fun entry : RemediationEntry =>
      { entry with finishedAt := some now, outcome := some operation.outcome })
        c.remediationHistory.reverse).reverse.map (·.startedAt)
          = c.remediationHistory.map (·.startedAt) := by
    intro p
    rw [List.map_reverse, map_updateFirst, List.map_reverse, List.reverse_reverse]
    exact fun _ _ => rfl
  simp only [DesiredStateContract.standing, htimes]
  rfl

theorem Tracks.closing {closed : DesiredStateContract} {byReconcile : Bool}
    (h : Tracks log c.standing) (hactive : c.activeOperationId.isSome = true)
    (hclosed : closeHistory c operation now = .ok closed)
    (hk : operation.outcome = .verified
      ∨ (if byReconcile then c.consecutiveFailures + 1 else c.consecutiveFailures)
        ≤ c'.consecutiveFailures)
    (hs : c'.standing = { closed.standing with failures := c'.consecutiveFailures }) :
    Fits log c { contract := c', events := [.closed c.id operation.outcome byReconcile] } where
  id := by
    have hid : c'.standing.id = c.standing.id := by
      rw [hs, closeHistory_ok hclosed]
    exact hid
  own := by
    intro event hevent
    rw [List.mem_singleton.1 hevent]
    rfl
  quiet := by
    intro event hevent
    rw [List.mem_singleton.1 hevent]
    rfl
  tracks := by
    show Tracks (.closed c.id operation.outcome byReconcile :: log) c'.standing
    rw [hs, closeHistory_ok hclosed]
    exact h.close hactive hk

theorem closeHistory_fields (h : closeHistory c operation now = .ok c') :
    c'.id = c.id ∧ c'.activeOperationId = none ∧ c'.consecutiveFailures = c.consecutiveFailures
    ∧ c'.status = c.status := by
  rw [closeHistory] at h
  simp only [bind_eq_ok, Except.ok.injEq] at h
  obtain ⟨_, -, rfl⟩ := h
  exact ⟨rfl, rfl, rfl, rfl⟩

theorem reconcilePaused_fits {change : Change} (h : Tracks log c.standing)
    (hok : reconcilePaused env c = .ok change) : Fits log c change := by
  rw [reconcilePaused] at hok
  split at hok
  · rw [← Except.ok.inj hok]
    exact h.still rfl
  · next active hactive =>
    split at hok
    · rw [← Except.ok.inj hok]
      exact h.still rfl
    · next observed hobserved =>
      simp only [bind_eq_ok, Except.ok.injEq] at hok
      obtain ⟨closed, hclosed, rfl⟩ := hok
      obtain ⟨hid, -, hfailures, -⟩ := closeHistory_fields hclosed
      have hsome : c.activeOperationId.isSome = true := by
        rw [hactive]
        rfl
      rw [hid]
      refine h.closing hsome hclosed (.inr hfailures.ge) ?_
      simp only [DesiredStateContract.standing, hid]

/-- Where `reconcile` goes on, the contract is idle. -/
def Progress.Fits (log : List Event) (c : DesiredStateContract) : Progress → Prop
  | .done change => Desired.Fits log c change
  | .more change => Desired.Fits log c change ∧ change.contract.status ≠ .paused
      ∧ change.contract.activeOperationId = none

theorem reconcileActive_fits {progress : Progress} (h : Tracks log c.standing)
    (hnot : c.status ≠ .paused) (hok : reconcileActive env c = .ok progress) :
    progress.Fits log c := by
  have hpaused : (c.status == .paused) = false := beq_eq_false_iff_ne.2 hnot
  rw [reconcileActive] at hok
  split at hok
  · next hactive =>
    obtain rfl := Except.ok.inj hok
    exact ⟨h.still rfl, hnot, hactive⟩
  · next active hactive =>
    split at hok
    · obtain rfl := Except.ok.inj hok
      refine h.still ?_
      simp [DesiredStateContract.standing, hpaused]
    · next operation hoperation =>
      split at hok
      · obtain rfl := Except.ok.inj hok
        refine h.still ?_
        simp only [DesiredStateContract.standing, hpaused]
        split <;> rfl
      · simp only [bind_eq_ok, Except.ok.injEq] at hok
        obtain ⟨closed, hclosed, rfl⟩ := hok
        obtain ⟨hid, hnone, hfailures, hstatus⟩ := closeHistory_fields hclosed
        have hsome : c.activeOperationId.isSome = true := by
          rw [hactive]
          rfl
        refine ⟨?_, hstatus ▸ hnot, hnone⟩
        rw [hid]
        refine h.closing hsome hclosed ?_ ?_
        · by_cases hverified : operation.state = .verified
          · refine .inl ?_
            rw [DigitalOperation.outcome, hverified]
          · refine .inr ?_
            rw [if_neg hverified, hfailures]
            exact le_refl _
        · simp only [DesiredStateContract.standing, hid]

theorem Fits.still {change : Change} (h : Fits log c change)
    (hs : c'.standing = change.contract.standing) :
    Fits log c { contract := c', events := change.events } where
  id := (congrArg Standing.id hs).trans h.id
  own := h.own
  quiet := h.quiet
  tracks := by
    show Tracks (change.events.reverse ++ log) c'.standing
    rw [hs]
    exact h.tracks

theorem Fits.healthy {change : Change} (h : Fits log c change)
    (hs : c'.standing = { change.contract.standing with failures := c'.consecutiveFailures }) :
    Fits log c { contract := c', events := change.events ++ [Event.healthy change.contract.id] } where
  id := (congrArg Standing.id hs).trans h.id
  own := by
    intro event hevent
    rcases List.mem_append.1 hevent with hin | hin
    · exact h.own event hin
    · rw [List.mem_singleton.1 hin]
      exact h.id
  quiet := by
    intro event hevent
    rcases List.mem_append.1 hevent with hin | hin
    · exact h.quiet event hin
    · rw [List.mem_singleton.1 hin]
      rfl
  tracks := by
    show Tracks ((change.events ++ [Event.healthy change.contract.id]).reverse ++ log) c'.standing
    rw [List.reverse_append, List.append_assoc, hs]
    exact h.tracks.healthy _

-- ===== assessment

theorem getLast?_times (h : Tracks log c.standing) :
    c.remediationHistory.getLast?.map (·.startedAt) = (starts (tenure c.id log)).head? := by
  have htimes : c.remediationHistory.map (·.startedAt)
      = ((starts (tenure c.id log)).take maxHistory).reverse := h.times
  rw [← List.getLast?_map, htimes, List.getLast?_reverse]
  cases starts (tenure c.id log) <;> rfl

theorem remediationsToday_eq (h : Tracks log c.standing) (now : Instant) :
    remediationsToday c now = ((starts (tenure c.id log)).take maxHistory).countP
      fun t => isoDay t == isoDay now := by
  have htimes : c.remediationHistory.map (·.startedAt)
      = ((starts (tenure c.id log)).take maxHistory).reverse := h.times
  rw [← List.countP_reverse, ← htimes, List.countP_map]
  rfl

/-- Where `reconcile` remediates, the contract is idle and the limits admit
it. -/
def Progress.Admits (log : List Event) (c : DesiredStateContract) (now : Instant) : Progress → Prop
  | .done change => Desired.Fits log c change
  | .more change => Desired.Fits log c change ∧ change.contract.activeOperationId = none
      ∧ Admitted change.contract.policy now (tenure c.id (change.events.reverse ++ log))

theorem admitted_of_checks (h : Tracks log c.standing) (hnot : c.status ≠ .paused)
    (hidle : c.activeOperationId = none)
    (hfailures : ¬ c.policy.maxConsecutiveFailures ≤ c.consecutiveFailures)
    (htoday : ¬ c.policy.maxRemediationsPerDay ≤ remediationsToday c now)
    (hspaced : ¬ (c.remediationHistory.getLast?.any fun entry =>
      now.val - entry.startedAt.val < c.policy.minRemediationIntervalMs) = true) :
    Admitted c.policy now (tenure c.id log) where
  limits := by
    refine ⟨?_, ?_, ?_, ?_⟩
    · exact h.paused.trans (beq_eq_false_iff_ne.2 hnot)
    · have hactive := h.active
      have hnone : c.standing.active = false := by
        show c.activeOperationId.isSome = false
        rw [hidle]
        rfl
      rw [hnone] at hactive
      exact hactive.symm
    · intro previous hprevious
      rw [← getLast?_times h] at hprevious
      obtain ⟨entry, hentry, rfl⟩ := Option.map_eq_some_iff.1 hprevious
      by_contra hless
      apply hspaced
      rw [hentry, Option.any_some, decide_eq_true_eq]
      omega
    · have hle := h.failures
      have hcount : (failures (tenure c.id log) : Int) ≤ c.consecutiveFailures := by
        exact_mod_cast hle
      omega
  recent := by
    rw [← remediationsToday_eq h]
    omega

theorem assess_fits {change : Change} {progress : Progress} (h : Fits log c change)
    (hnot : change.contract.status ≠ .paused) (hidle : change.contract.activeOperationId = none)
    (hok : assess env change = .ok progress) : progress.Admits log c env.now := by
  have hpaused : (change.contract.status == .paused) = false := beq_eq_false_iff_ne.2 hnot
  rw [assess, bind_eq_ok] at hok
  obtain ⟨reason, -, hok⟩ := hok
  cases reason with
  | none =>
    obtain rfl := Except.ok.inj hok
    refine h.healthy ?_
    simp [DesiredStateContract.standing, hpaused]
  | some reason =>
    dsimp only at hok
    split at hok
    · obtain rfl := Except.ok.inj hok
      refine h.still ?_
      simp [DesiredStateContract.standing, hpaused]
    · split at hok
      · obtain rfl := Except.ok.inj hok
        refine h.still ?_
        simp [DesiredStateContract.standing, hpaused]
      · next hfailures =>
        split at hok
        · obtain rfl := Except.ok.inj hok
          refine h.still ?_
          simp [DesiredStateContract.standing, hpaused]
        · next htoday =>
          split at hok
          · obtain rfl := Except.ok.inj hok
            refine h.still ?_
            simp [DesiredStateContract.standing, hpaused]
          · next hspaced =>
            obtain rfl := Except.ok.inj hok
            have hstill : Fits log c
                { contract := { change.contract with
                    status := .drifted, lastReason := some reason, updatedAt := env.now }
                  events := change.events } := by
              refine h.still ?_
              simp [DesiredStateContract.standing, hpaused]
            refine ⟨hstill, hidle, ?_⟩
            rw [← hstill.id]
            exact admitted_of_checks hstill.tracks (fun hs => nomatch hs) hidle hfailures htoday
              hspaced

end OperatorRuntime.Desired
