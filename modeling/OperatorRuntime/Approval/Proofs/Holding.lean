/-
What every run of the approval store keeps (`Inv`): the times of a record
are in order, an approval has the event of its `approve`, and a request
that was denied or consumed stays so while its record is there. A lease is
held while the store has the record that granted it; `hold_cases` lists
all the ways it can end, and both the one lease per action and the effect
of `settle` follow from that list.
-/
import OperatorRuntime.Approval.Proofs.Changes

namespace OperatorRuntime.Approval

open Lib

def Event.record : Event → ApprovalRecord
  | .approved r => r
  | .denied r => r
  | .granted r => r
  | .consumed r => r
  | .released r => r

-- ===== invariant

/-- The approval a record stands for. -/
def ApprovedAs (r a : ApprovalRecord) : Prop :=
  a.actionId = r.actionId ∧ a.approvalRequestId = r.approvalRequestId
    ∧ a.actionHash = r.actionHash ∧ a.authorityHash = r.authorityHash
    ∧ a.approvalExpiresAt = r.approvalExpiresAt

structure Kept (m : Machine) (r : ApprovalRecord) : Prop where
  created : r.createdAt.val ≤ m.now.val
  pendingEnds : r.pendingExpiresAt.val = r.createdAt.val + pendingTtlMs
  approvedIn : ∀ a ∈ r.approvedAt, a.val < r.pendingExpiresAt.val
  approvedBefore : ∀ a ∈ r.approvedAt, a.val ≤ m.now.val
  approvalEnds : ∀ e ∈ r.approvalExpiresAt, ∃ a ∈ r.approvedAt, e.val = a.val + approvalTtlMs
  leaseEnds : ∀ e ∈ r.executionLeaseExpiresAt, ∃ x ∈ r.approvalExpiresAt,
    e.val < x.val + executionLeaseMs
  drawn : r.approvalRequestId ∈ m.drawn
  approved : r.status = .approved → ∃ a, .approved a ∈ m.log ∧ ApprovedAs r a
  denied : ∀ d, .denied d ∈ m.log → d.approvalRequestId = r.approvalRequestId → r.status = .denied
  consumed : ∀ c, .consumed c ∈ m.log → c.approvalRequestId = r.approvalRequestId →
    r.status = .consumed

structure Inv (m : Machine) : Prop where
  valid : ValidState m.stored
  kept : ∀ r ∈ m.stored, Kept m r
  logged : ∀ e ∈ m.log, e.record.approvalRequestId ∈ m.drawn

theorem Inv.start (now : Instant) : Inv (start now) where
  valid := ⟨Nat.zero_le _, fun _ hr => (nomatch hr), List.nodup_nil, List.nodup_nil⟩
  kept := fun _ hr => nomatch hr
  logged := fun _ he => nomatch he

theorem later_eq_ok {now t : Instant} {ms : Nat} (h : now.later ms = .ok t) :
    t.val = now.val + ms := by
  unfold Instant.later at h
  split at h
  · cases h
    rfl
  · cases h

section
variable {m m' : Machine} {r : ApprovalRecord}

theorem Kept.withoutLease (h : Kept m r) : Kept m (withoutLease r) :=
  { h with
    leaseEnds := fun _ he => nomatch he
    approved := fun hs => h.approved hs }

theorem Kept.mono {events : List Event} (h : Kept m r) (hnow : m.now.val ≤ m'.now.val)
    (hdrawn : m.drawn ⊆ m'.drawn) (hlog : m'.log = m.log ++ events)
    (hother : ∀ e ∈ events, e.record.approvalRequestId ≠ r.approvalRequestId) : Kept m' r where
  created := h.created.trans hnow
  pendingEnds := h.pendingEnds
  approvedIn := h.approvedIn
  approvedBefore := fun a ha => (h.approvedBefore a ha).trans hnow
  approvalEnds := h.approvalEnds
  leaseEnds := h.leaseEnds
  drawn := hdrawn h.drawn
  approved := by
    intro hs
    obtain ⟨a, ha, has⟩ := h.approved hs
    exact ⟨a, hlog ▸ List.mem_append_left _ ha, has⟩
  denied := by
    intro d hd hid
    rw [hlog] at hd
    rcases List.mem_append.1 hd with hold | hnew
    · exact h.denied d hold hid
    · exact absurd hid (hother _ hnew)
  consumed := by
    intro c hc hid
    rw [hlog] at hc
    rcases List.mem_append.1 hc with hold | hnew
    · exact h.consumed c hold hid
    · exact absurd hid (hother _ hnew)

theorem Kept.mono_quiet (h : Kept m r) (hnow : m.now.val ≤ m'.now.val)
    (hdrawn : m.drawn ⊆ m'.drawn) (hlog : m'.log = m.log) : Kept m' r := by
  refine h.mono hnow hdrawn (by rw [hlog, List.append_nil]) ?_
  intro e he
  cases he

theorem Kept.not_denied (h : Kept m r) (hstatus : r.status ≠ .denied) {d : ApprovalRecord}
    (hd : .denied d ∈ m.log) : d.approvalRequestId ≠ r.approvalRequestId :=
  fun hid => hstatus (h.denied d hd hid)

theorem Kept.not_consumed (h : Kept m r) (hstatus : r.status ≠ .consumed)
    {c : ApprovalRecord} (hc : .consumed c ∈ m.log) : c.approvalRequestId ≠ r.approvalRequestId :=
  fun hid => hstatus (h.consumed c hc hid)

variable {now : Instant}

theorem Kept.of_requested (hinv : Inv m) (hreq : Requested now r) (hnow : now.val ≤ m'.now.val)
    (hfresh : r.approvalRequestId ∉ m.drawn) (hdrawn : r.approvalRequestId ∈ m'.drawn)
    (hlog : m'.log = m.log) : Kept m' r where
  created := by rw [hreq.createdAt]; exact hnow
  pendingEnds := by rw [later_eq_ok hreq.expires, hreq.createdAt]
  approvedIn := by rw [hreq.approvedAt]; exact fun a ha => nomatch ha
  approvedBefore := by rw [hreq.approvedAt]; exact fun a ha => nomatch ha
  approvalEnds := by rw [hreq.approvalExpiresAt]; exact fun e he => nomatch he
  leaseEnds := by rw [hreq.leaseExpiresAt]; exact fun e he => nomatch he
  drawn := hdrawn
  approved := by rw [hreq.pending]; exact fun h => nomatch h
  denied := by
    intro d hd hid
    rw [hlog] at hd
    exact absurd (hid ▸ hinv.logged _ hd) hfresh
  consumed := by
    intro c hc hid
    rw [hlog] at hc
    exact absurd (hid ▸ hinv.logged _ hc) hfresh

variable {o : Option ApprovalRecord}

theorem Moves.events {turn : Turn} {o' : Option ApprovalRecord} {events : List Event}
    (h : Moves turn o o' events) : ∀ e ∈ events, ∃ r ∈ o,
      e.record.approvalRequestId = r.approvalRequestId := by
  intro e he
  cases h with
  | tidied _ => cases he
  | overtaken _ _ => cases he
  | requested _ _ _ _ => cases he
  | approved _ _ _ => exact ⟨_, rfl, by rw [List.mem_singleton.1 he]; rfl⟩
  | denied _ _ _ => exact ⟨_, rfl, by rw [List.mem_singleton.1 he]; rfl⟩
  | granted _ _ _ _ _ _ => exact ⟨_, rfl, by rw [List.mem_singleton.1 he]; rfl⟩
  | consumed _ => exact ⟨_, rfl, by rw [List.mem_singleton.1 he]; rfl⟩
  | released _ _ _ _ _ => exact ⟨_, rfl, by rw [List.mem_singleton.1 he]; rfl⟩

theorem Tidied.kept_left {turn : Turn} {o' : Option ApprovalRecord} (h : Tidied turn o o')
    (hr : r ∈ o') : ∃ x ∈ o, r = x ∨ r = Approval.withoutLease x := by
  cases h with
  | kept => exact ⟨r, hr, .inl rfl⟩
  | dropped _ => cases hr
  | cleared _ _ _ =>
    cases hr
    exact ⟨_, rfl, .inr rfl⟩

theorem mem_append_singleton_of_ne {e e' : Event} {log : List Event} (h : e ∈ log ++ [e'])
    (hne : e ≠ e') : e ∈ log := by
  rcases List.mem_append.1 h with hold | hnew
  · exact hold
  · exact absurd (List.mem_singleton.1 hnew) hne

theorem Kept.no_denial (h : Kept m r) (hstatus : r.status ≠ .denied) {e : Event}
    (hlog : m'.log = m.log ++ [e]) {d : ApprovalRecord} (hne : .denied d ≠ e)
    (hd : .denied d ∈ m'.log) : d.approvalRequestId ≠ r.approvalRequestId :=
  h.not_denied hstatus (mem_append_singleton_of_ne (hlog ▸ hd) hne)

theorem Kept.no_consumption (h : Kept m r) (hstatus : r.status ≠ .consumed) {e : Event}
    (hlog : m'.log = m.log ++ [e]) {c : ApprovalRecord} (hne : .consumed c ≠ e)
    (hc : .consumed c ∈ m'.log) : c.approvalRequestId ≠ r.approvalRequestId :=
  h.not_consumed hstatus (mem_append_singleton_of_ne (hlog ▸ hc) hne)

/-- A record that a turn leaves still agrees with the log. -/
theorem Kept.moves {turn : Turn} {events : List Event} (hinv : Inv m)
    (hvalid : ∀ x ∈ o, ValidRecord x) (hkept : ∀ x ∈ o, Kept m x)
    (hmove : Moves turn o (some r) events) (hnow : m.now.val ≤ turn.env.now.val)
    (hnow' : turn.env.now.val ≤ m'.now.val)
    (hdraws : ∀ id ∈ turn.call.draws, id ∉ m.drawn ∧ id ∈ m'.drawn)
    (hdrawn : m.drawn ⊆ m'.drawn) (hlog : m'.log = m.log ++ events) : Kept m' r := by
  have hle : m.now.val ≤ m'.now.val := hnow.trans hnow'
  cases hmove with
  | tidied h =>
    rw [List.append_nil] at hlog
    obtain ⟨x, hx, rfl | rfl⟩ := h.kept_left rfl
    · exact (hkept _ hx).mono_quiet hle hdrawn hlog
    · exact ((hkept x hx).mono_quiet hle hdrawn hlog).withoutLease
  | requested _ hdrawn' hreq _ =>
    obtain ⟨hfresh, hin⟩ := hdraws _ hdrawn'
    exact Kept.of_requested hinv hreq hnow' hfresh hin (by rw [hlog, List.append_nil])
  | @approved x expiresAt hpending hopen hexpires =>
    have h := hkept x rfl
    have hnone : x.executionLeaseExpiresAt = none := by
      rw [← (hvalid x rfl).withoutLease (by rw [hpending]; decide)]
      rfl
    exact
      { created := h.created.trans hle
        pendingEnds := h.pendingEnds
        approvedIn := fun a ha => Option.some.inj ha ▸ hopen
        approvedBefore := fun a ha => Option.some.inj ha ▸ hnow'
        approvalEnds := fun e he => ⟨_, rfl, Option.some.inj he ▸ later_eq_ok hexpires⟩
        leaseEnds := fun e he => nomatch hnone.symm.trans he
        drawn := hdrawn h.drawn
        approved := fun _ => ⟨_, hlog ▸ List.mem_append_right _ (List.mem_singleton.2 rfl),
          rfl, rfl, rfl, rfl, rfl⟩
        denied := fun d hd hid => absurd hid (h.no_denial (by rw [hpending]; decide)
          hlog (by simp) hd)
        consumed := fun c hc hid => absurd hid (h.no_consumption (by rw [hpending]; decide)
          hlog (by simp) hc) }
  | @denied x _ hlive _ =>
    have h := hkept x rfl
    have hstatus : x.status ≠ .consumed := by
      rcases hlive with hs | hs
      · rw [hs]; decide
      · rw [hs]; decide
    exact
      { h with
        created := h.created.trans hle
        approvedBefore := fun a ha => (h.approvedBefore a ha).trans hle
        leaseEnds := fun _ he => nomatch he
        drawn := hdrawn h.drawn
        approved := fun hs => nomatch hs
        denied := fun _ _ _ => rfl
        consumed := fun c hc hid => absurd hid (h.no_consumption hstatus hlog (by simp) hc) }
  | @granted x leaseId expiresAt _ _ happroved _ hopen hexpires =>
    have h := hkept x rfl
    exact
      { h with
        created := h.created.trans hle
        approvedBefore := fun a ha => (h.approvedBefore a ha).trans hle
        leaseEnds := by
          intro e he
          cases he
          unfold passed at hopen
          push Not at hopen
          obtain ⟨end', hend, hlt⟩ := hopen
          refine ⟨end', hend, ?_⟩
          rw [later_eq_ok hexpires]
          omega
        drawn := hdrawn h.drawn
        approved := by
          intro hs
          obtain ⟨a, ha, has⟩ := h.approved happroved
          exact ⟨a, hlog ▸ List.mem_append_left _ ha, has⟩
        denied := fun d hd hid => absurd hid (h.no_denial (by rw [happroved]; decide)
          hlog (by simp) hd)
        consumed := fun c hc hid => absurd hid (h.no_consumption (by rw [happroved]; decide)
          hlog (by simp) hc) }
  | @consumed x consumedAt happroved =>
    have h := hkept x rfl
    exact
      { h with
        created := h.created.trans hle
        approvedBefore := fun a ha => (h.approvedBefore a ha).trans hle
        leaseEnds := fun _ he => nomatch he
        drawn := hdrawn h.drawn
        approved := fun hs => nomatch hs
        denied := fun d hd hid => absurd hid (h.no_denial (by rw [happroved]; decide)
          hlog (by simp) hd)
        consumed := fun _ _ _ => rfl }
  | @released x _ action leaseId authority _ _ _ happroved hleft =>
    have h := (hkept x rfl).withoutLease
    obtain rfl : r = Approval.withoutLease x := by
      rcases hleft with hnone | hsome
      · cases hnone
      · exact Option.some.inj hsome
    exact
      { h with
        created := h.created.trans hle
        approvedBefore := fun a ha => (h.approvedBefore a ha).trans hle
        drawn := hdrawn h.drawn
        approved := by
          intro hs
          obtain ⟨a, ha, has⟩ := h.approved happroved
          exact ⟨a, hlog ▸ List.mem_append_left _ ha, has⟩
        denied := fun d hd hid => absurd hid (h.no_denial (show x.status ≠ _ by rw [happroved]; decide)
          hlog (by simp) hd)
        consumed := fun c hc hid => absurd hid (h.no_consumption (show x.status ≠ _ by rw [happroved]; decide)
          hlog (by simp) hc) }

-- ===== steps

variable {sha256 : Sha256}

theorem step_eq_some {turn : Turn} (h : step sha256 m turn = some m') :
    Timely m turn ∧ m' = m.after sha256 turn := by
  unfold step at h
  split at h
  · next htimely => exact ⟨htimely, (Option.some.inj h).symm⟩
  · cases h

/-- One turn: each record it leaves is one it found or the one it moved. -/
theorem Inv.step {turn : Turn} (hinv : Inv m) (h : step sha256 m turn = some m') : Inv m' := by
  obtain ⟨⟨hnow, hnow', hfresh⟩, rfl⟩ := step_eq_some h
  obtain ⟨hvalid, own, hmove, hother⟩ := @Turn.run_ran sha256 _ hinv.valid turn
  have hdrawn : m.drawn ⊆ (m.after sha256 turn).drawn := List.subset_append_left _ _
  have hkept : ∀ id, ∀ x ∈ recordOf? m.stored id, ValidRecord x ∧ Kept m x := by
    intro id x hx
    obtain ⟨hin, -⟩ := recordOf?_mem hx
    exact ⟨hinv.valid.valid x hin, hinv.kept x hin⟩
  refine ⟨hvalid, ?_, ?_⟩
  · intro r hr
    have hfind := recordOf?_of_mem hvalid hr
    by_cases hid : r.actionId = own
    · rw [hid] at hfind
      rw [hfind] at hmove
      exact Kept.moves hinv (fun x hx => (hkept own x hx).1) (fun x hx => (hkept own x hx).2)
        hmove hnow hnow' (fun id hid => ⟨hfresh id hid, List.mem_append_right _ hid⟩) hdrawn rfl
    · have htidied := hother _ hid
      rw [hfind] at htidied
      obtain ⟨x, hx, hrx⟩ := htidied.kept_left rfl
      have hxmem := recordOf?_mem hx
      have hxkept : Kept (m.after sha256 turn) x := by
        refine (hkept _ x hx).2.mono (hnow.trans hnow') hdrawn rfl ?_
        intro e he hsame
        obtain ⟨y, hy, hrequest⟩ := hmove.events e he
        have hymem := recordOf?_mem hy
        have heq : y = x := List.inj_on_of_nodup_map hinv.valid.requests hymem.1 hxmem.1
          (hrequest.symm.trans hsame)
        exact hid (by rw [← hxmem.2, ← heq, hymem.2])
      rcases hrx with rfl | rfl
      · exact hxkept
      · exact hxkept.withoutLease
  · intro e he
    rcases List.mem_append.1 he with hold | hnew
    · exact hdrawn (hinv.logged e hold)
    · obtain ⟨x, hx, hrequest⟩ := hmove.events e hnew
      rw [hrequest]
      exact hdrawn (hkept own x hx).2.drawn

-- ===== holding

theorem passed_of_idle (hvalid : ValidRecord r) (hidle : activeExecutionLease r now = false) :
    passed r.executionLeaseExpiresAt now := by
  intro e he
  by_contra hgt
  have hactive : activeExecutionLease r now = true := by
    have hid : r.executionLeaseId.isSome = true := by rw [hvalid.lease, he]; rfl
    unfold activeExecutionLease
    rw [hid, he]
    simpa using hgt
  rw [hactive] at hidle
  cases hidle

theorem Kept.lapsed (h : Kept m r) (hvalid : ValidRecord r) (happroved : r.status = .approved)
    (hlapsed : Lapsed now r) :
    passed r.executionLeaseExpiresAt now ∧ passed r.approvalExpiresAt now := by
  rcases hlapsed with hold | ⟨hpending, -⟩ | ⟨-, hidle, hpassed⟩
  · have hend : ∀ x ∈ r.approvalExpiresAt,
        x.val < r.createdAt.val + pendingTtlMs + approvalTtlMs := by
      intro x hx
      obtain ⟨a, ha, hxa⟩ := h.approvalEnds x hx
      have hin := h.approvedIn a ha
      have hpending := h.pendingEnds
      omega
    have hlong : pendingTtlMs + approvalTtlMs + executionLeaseMs ≤ retentionMs := by decide
    constructor
    · intro e he
      obtain ⟨x, hx, hlt⟩ := h.leaseEnds e he
      have hxlt := hend x hx
      omega
    · intro x hx
      have hxlt := hend x hx
      omega
  · rw [happroved] at hpending
    cases hpending
  · exact ⟨passed_of_idle hvalid hidle, hpassed⟩

/-- A held record stays, is settled by its holder, or runs out. The last case is
a second approval past the pending deadline, which removes it. -/
theorem hold_cases {turn : Turn} (hinv : Inv m) (hfind : recordOf? m.stored r.actionId = some r)
    (happroved : r.status = .approved) (h : Approval.step sha256 m turn = some m') :
    recordOf? m'.stored r.actionId = some r ∨ .consumed r ∈ m'.log
    ∨ (.released r ∈ m'.log ∧ ∃ action leaseId authority,
        turn.call = .settle action leaseId .release authority ∧ action.id = r.actionId
          ∧ r.executionLeaseId.map (·.val) = some leaseId)
    ∨ (passed r.executionLeaseExpiresAt turn.env.now
        ∧ (turn.call.prunes ∨ turn.call = .deny r.actionId r.approvalRequestId.val
          ∨ passed r.approvalExpiresAt turn.env.now))
    ∨ (turn.call = .approve r.actionId r.approvalRequestId.val
        ∧ r.pendingExpiresAt.val ≤ turn.env.now.val) := by
  obtain ⟨-, rfl⟩ := step_eq_some h
  obtain ⟨hvalid', own, hmove, hother⟩ := @Turn.run_ran sha256 _ hinv.valid turn
  have hin := (recordOf?_mem hfind).1
  have hvalid := hinv.valid.valid r hin
  have hkept := hinv.kept r hin
  have htidied : ∀ o', Tidied turn (some r) o' → o' = some r
      ∨ (passed r.executionLeaseExpiresAt turn.env.now
          ∧ (turn.call.prunes ∨ turn.call = .deny r.actionId r.approvalRequestId.val
            ∨ passed r.approvalExpiresAt turn.env.now)) := by
    intro o' ht
    cases ht with
    | kept => exact .inl rfl
    | dropped hlapsed =>
      obtain ⟨hlease, hend⟩ := hkept.lapsed hvalid happroved hlapsed
      exact .inr ⟨hlease, .inr (.inr hend)⟩
    | cleared _ hover hprunes => exact .inr ⟨hover, .inl hprunes⟩
  by_cases hid : r.actionId = own
  · rw [← hid, hfind] at hmove
    have hlog : (m.after sha256 turn).log = m.log ++ (turn.run sha256 m.stored).2 := rfl
    generalize (turn.run sha256 m.stored).2 = events at hmove hlog
    show recordOf? (turn.run sha256 m.stored).1 r.actionId = some r ∨ _
    generalize recordOf? (turn.run sha256 m.stored).1 r.actionId = o' at hmove
    cases hmove with
    | tidied ht =>
      rcases htidied _ ht with hsame | hover
      · exact .inl hsame
      · exact .inr (.inr (.inr (.inl hover)))
    | overtaken hcall hover => exact .inr (.inr (.inr (.inr ⟨hcall, hover⟩)))
    | requested hprunes _ _ hfree =>
      have hlease : passed r.executionLeaseExpiresAt turn.env.now := by
        rcases hfree r rfl with hlapsed | hidle
        · exact (hkept.lapsed hvalid happroved hlapsed).1
        · exact passed_of_idle hvalid hidle
      exact .inr (.inr (.inr (.inl ⟨hlease, .inl hprunes⟩)))
    | approved hpending _ _ => exact absurd (happroved.symm.trans hpending) (by decide)
    | denied hcall _ hidle =>
      exact .inr (.inr (.inr (.inl ⟨passed_of_idle hvalid hidle, .inr (.inl hcall)⟩)))
    | granted hprunes _ _ hidle _ _ =>
      exact .inr (.inr (.inr (.inl ⟨passed_of_idle hvalid hidle, .inl hprunes⟩)))
    | consumed _ =>
      exact .inr (.inl (hlog ▸ List.mem_append_right _ (List.mem_singleton.2 rfl)))
    | released hcall hown hlease _ _ =>
      refine .inr (.inr (.inl ⟨?_, _, _, _, hcall, hown, by rw [hlease]; rfl⟩))
      exact hlog ▸ List.mem_append_right _ (List.mem_singleton.2 rfl)
  · have ht := hother r.actionId hid
    rw [hfind] at ht
    rcases htidied _ ht with hsame | hover
    · exact .inl hsame
    · exact .inr (.inr (.inr (.inl hover)))

end

end OperatorRuntime.Approval
