/-
Connections after `fail`. The promises of a failed connection go on: its
running reads settle, its queued frames are processed, its
acknowledgement loop continues. None of that reaches a durable write once
the connection is drained, or once a read that can never be acknowledged
holds the window open (`Stuck`): `#handleDelivery` waits for an empty
window and the acknowledgement loop waits for that read.
-/
import OperatorRuntime.Relay.Proofs.ClientInvariant

namespace OperatorRuntime.Relay

-- === settled connections

/-- Nothing is pending. -/
def Connection.Drained (c : Connection) : Prop :=
  c.queue = [] ∧ c.work = .idle ∧ c.readsSettled = true

/-- A read that will never be acknowledged keeps the window open: the
acknowledgement queue was rejected, or waits for a read whose handler
rejected. -/
def Connection.Stuck (c : Connection) : Prop :=
  ∃ r ∈ c.activeReads, c.readAckQueue = .rejected
    ∨ (r ∉ (c.runningReads ++ c.completedReads).map (·.seq)
      ∧ ((c.readAckQueue = .idle ∧ c.nextAckSeq = r)
        ∨ ∃ d, c.readAckQueue = .sending d ∧ d.seq + 1 = r))

/-- No pending step of the connection can write. -/
def Connection.Quiet (c : Connection) : Prop :=
  c.Drained ∨ c.Stuck

section
variable {opts : ClientOptions} {durable : RelayState} {c : Connection} {e : Effect}

theorem Connection.Stuck.active_ne (h : c.Stuck) : c.activeReads ≠ [] := by
  obtain ⟨r, hr, _⟩ := h
  exact List.ne_nil_of_mem hr

theorem Connection.Stuck.congr {c' : Connection} (h : c.Stuck)
    (hactive : c'.activeReads = c.activeReads) (hrunning : c'.runningReads = c.runningReads)
    (hcompleted : c'.completedReads = c.completedReads) (hack : c'.readAckQueue = c.readAckQueue)
    (hnext : c'.nextAckSeq = c.nextAckSeq) : c'.Stuck := by
  rw [Connection.Stuck, hactive, hrunning, hcompleted, hack, hnext]
  exact h

theorem Connection.drain_eq (c : Connection) : ∃ draining, c.drain = { c with draining } := by
  rw [Connection.drain]
  split
  · exact ⟨c.draining, rfl⟩
  · exact ⟨true, rfl⟩

theorem Connection.Stuck.rejectMessage (h : c.Stuck) : c.rejectMessage.Stuck := by
  obtain ⟨draining, hdrain⟩ := c.drain_eq
  rw [Connection.rejectMessage, hdrain]
  exact h.congr rfl rfl rfl rfl rfl

@[simp] theorem rejectMessage_settled (c : Connection) : c.rejectMessage.settled = c.settled := by
  obtain ⟨draining, hdrain⟩ := c.drain_eq
  rw [Connection.rejectMessage, hdrain]

/-- What a settled connection may still do: go on, silently and quietly. -/
def Effect.StaysQuiet (e : Effect) (durable : RelayState) : Prop :=
  e.Silent durable ∧ e.conn.settled = true ∧ e.conn.Quiet

theorem Connection.Stuck.throwing (h : c.Stuck) (hsettled : c.settled = true) :
    (throwing durable c).StaysQuiet durable :=
  ⟨⟨rfl, rfl, rfl⟩, by simpa [Relay.throwing] using hsettled,
    .inr h.rejectMessage⟩

theorem Connection.Stuck.goto (h : c.Stuck) (hsettled : c.settled = true)
    (work : Work) : (Relay.goto durable c work).StaysQuiet durable :=
  ⟨⟨rfl, rfl, rfl⟩, hsettled, .inr (h.congr rfl rfl rfl rfl rfl)⟩

theorem Connection.Stuck.processMessage (hinv : ConnInv c) (h : c.Stuck)
    (hsettled : c.settled = true) (frame : ServerFrame) :
    (processMessage opts durable c frame).StaysQuiet durable := by
  have hwelcomed : c.welcomed = true := by
    by_contra hnot
    exact h.active_ne (hinv.handshake (by simpa using hnot))
  have hactive : c.activeReads.isEmpty = false := by
    simpa using h.active_ne
  cases frame with
  | welcome frame =>
    rw [Relay.processMessage, if_pos hwelcomed]
    exact h.throwing hsettled
  | delivery frame =>
    rw [Relay.processMessage]
    simp only [hwelcomed, hactive, Bool.not_true, Bool.false_eq_true, if_false]
    split
    · exact h.throwing hsettled
    · split
      · exact h.throwing hsettled
      · split
        · exact h.goto hsettled _
        · exact h.goto hsettled _

theorem Connection.Stuck.startRead (hinv : ConnInv c) (h : c.Stuck)
    (hsettled : c.settled = true) (d : RelayDelivery) :
    (startRead durable c d).StaysQuiet durable := by
  rw [Relay.startRead]
  split
  · exact h.goto hsettled _
  · split
    · exact h.throwing hsettled
    · next hnext =>
      push Not at hnext
      refine ⟨⟨rfl, rfl, rfl⟩, hsettled, .inr ?_⟩
      obtain ⟨r, hr, hcases⟩ := h
      refine ⟨r, List.mem_append_left _ hr, ?_⟩
      rcases hcases with hrejected | ⟨hgone, hwait⟩
      · exact .inl hrejected
      · refine .inr ⟨?_, hwait⟩
        have hbound := (hinv.mem_active.1 hr).2
        simp only [Relay.goto, List.map_append, List.map_cons, List.map_nil,
          List.mem_append, List.mem_singleton, not_or] at hgone ⊢
        exact ⟨⟨hgone.1, by omega⟩, hgone.2⟩

theorem Connection.Stuck.workStep (hinv : ConnInv c) (h : c.Stuck)
    (hsettled : c.settled = true) {answer : Answer}
    (hstep : workStep opts durable c answer = some e) :
    e.StaysQuiet durable := by
  have hstage := hinv.stage
  have hne := h.active_ne
  have hwelcomed : c.welcomed = true := by
    by_contra hnot
    exact hne (hinv.handshake (by simpa using hnot))
  have hclosed := hinv.closed hsettled
  have hcase := workStep_cases hstep
  generalize c.work = work at hcase hstage
  cases hcase with
  | idle frame queue =>
    have hstuck : Connection.Stuck { c with queue, work := .idle } :=
      h.congr rfl rfl rfl rfl rfl
    have hconn : ConnInv { c with queue, work := .idle } :=
      { hinv with stage := trivial }
    exact hstuck.processMessage hconn hsettled frame
  | readCheck d => exact h.startRead hinv hsettled d
  | barrier d hempty => exact absurd hempty hne
  | sendAck d handled =>
    cases handled with
    | true => exact absurd hstage.1 hne
    | false =>
      exact ⟨⟨rfl, rfl, by simp [Connection.ackFrames, hclosed]⟩,
        hsettled, .inr (h.congr rfl rfl rfl rfl rfl)⟩
  | expired | adoptResume | stopped | welcomed =>
    simp [Work.Fits, hwelcomed] at hstage
  | handle | recovery | clear | reread | mark | call | handled | complete | finish
  | finishLast => exact absurd hstage.1 hne
  | throws => exact h.throwing hsettled

variable {act : ConnAct}

theorem Connection.Stuck.step (hinv : ConnInv c) (h : c.Stuck) (hsettled : c.settled = true)
    (hstep : connStep opts durable c act = some e) : e.StaysQuiet durable := by
  have hclosed := hinv.closed hsettled
  cases act with
  | hello | receive | disconnect | stop => simp [connStep, hsettled] at hstep
  | settle => simp [connStep, hsettled] at hstep
  | closeSocket =>
    simp only [connStep, Option.some.injEq] at hstep
    subst hstep
    exact ⟨⟨rfl, rfl, rfl⟩, hsettled, .inr (h.congr rfl rfl rfl rfl rfl)⟩
  | work answer => exact h.workStep hinv hsettled hstep
  | readSettles seq ok =>
    obtain ⟨d, hd, rfl, hdurable, hevents, hacks, hconn⟩ :=
      readSettles_cases hstep
    obtain ⟨r, hr, hcases⟩ := h
    -- The read that blocks the window is not among the running ones.
    have hstuck : e.conn.Stuck := by
      rcases hconn with ⟨_, heq⟩ | ⟨_, heq⟩
      · rw [heq]
        refine ⟨r, hr, hcases.imp_right ?_⟩
        rintro ⟨hgone, hwait⟩
        refine ⟨?_, hwait⟩
        simp only [List.map_append, List.mem_append, not_or] at hgone ⊢
        have hne : r ≠ d.seq := by
          rintro rfl
          exact hgone.1 (List.mem_map_of_mem hd)
        refine ⟨?_, hgone.2, by simpa using hne⟩
        intro hin
        obtain ⟨x, hx, hxr⟩ := List.mem_map.1 hin
        exact hgone.1 (hxr ▸ List.mem_map_of_mem (List.mem_filter.1 hx).1)
      · rw [heq]
        refine ⟨r, hr, hcases.imp_right ?_⟩
        rintro ⟨hgone, hwait⟩
        refine ⟨?_, hwait⟩
        simp only [Connection.fail, List.map_append, List.mem_append, not_or] at hgone ⊢
        refine ⟨?_, hgone.2⟩
        intro hin
        obtain ⟨x, hx, hxr⟩ := List.mem_map.1 hin
        exact hgone.1 (hxr ▸ List.mem_map_of_mem (List.mem_filter.1 hx).1)
    refine ⟨⟨hdurable, hevents, hacks⟩, ?_, .inr hstuck⟩
    rcases hconn with ⟨_, heq⟩ | ⟨_, heq⟩
    · rw [heq]
      exact hsettled
    · rw [heq]
      rfl
  | ackRead =>
    obtain ⟨d, hidle, hnext, _⟩ := ackRead_cases hstep
    obtain ⟨hmem, hseq⟩ := nextCompleted?_spec hnext
    obtain ⟨r, _, hrejected | ⟨hgone, ⟨_, hr⟩ | ⟨x, hsending, _⟩⟩⟩ := h
    · rw [hidle] at hrejected
      cases hrejected
    · exfalso
      apply hgone
      rw [← hr, ← hseq]
      exact List.mem_map_of_mem (List.mem_append_right _ hmem)
    · rw [hidle] at hsending
      cases hsending
  | ackWrite =>
    obtain ⟨d, hwriting, _⟩ := ackWrite_cases hstep
    obtain ⟨r, _, hrejected | ⟨_, ⟨hidle, _⟩ | ⟨x, hsending, _⟩⟩⟩ := h
    · rw [hwriting] at hrejected
      cases hrejected
    · rw [hwriting] at hidle
      cases hidle
    · rw [hwriting] at hsending
      cases hsending
  | ackSend =>
    obtain ⟨d, hsend, rfl⟩ := ackSend_cases hstep
    obtain ⟨r, hr, hrejected | ⟨hgone, ⟨hidle, _⟩ | ⟨x, hsending, hxr⟩⟩⟩ := h
    · rw [hsend] at hrejected
      cases hrejected
    · rw [hsend] at hidle
      cases hidle
    · rw [hsend] at hsending
      cases hsending
      refine ⟨⟨rfl, rfl, by simp [Connection.ackFrames, hclosed]⟩, hsettled,
        .inr ⟨r, ?_, .inr ⟨?_, .inl ⟨rfl, hxr⟩⟩⟩⟩
      · rw [List.mem_filter]
        refine ⟨hr, ?_⟩
        simp only [bne_iff_ne, ne_eq]
        omega
      · intro hin
        apply hgone
        rw [List.map_append, List.mem_append] at hin ⊢
        refine hin.imp_right fun hc => ?_
        obtain ⟨y, hy, hyr⟩ := List.mem_map.1 hc
        exact hyr ▸ List.mem_map_of_mem (List.mem_filter.1 hy).1

theorem Connection.Drained.step (h : c.Drained) (hsettled : c.settled = true)
    (hstep : connStep opts durable c act = some e) : e.StaysQuiet durable := by
  obtain ⟨hqueue, hwork, hreads⟩ := h
  have hreads' := hreads
  simp only [Connection.readsSettled, Bool.and_eq_true, Bool.or_eq_true,
    beq_iff_eq, List.isEmpty_iff] at hreads'
  obtain ⟨hrunning, hack⟩ := hreads'
  cases act with
  | hello | receive | disconnect | stop => simp [connStep, hsettled] at hstep
  | settle => simp [connStep, hsettled] at hstep
  | closeSocket =>
    simp only [connStep, Option.some.injEq] at hstep
    subst hstep
    exact ⟨⟨rfl, rfl, rfl⟩, hsettled, .inl ⟨hqueue, hwork, hreads⟩⟩
  | work answer =>
    cases answer with
    | proceed => simp [connStep, workStep, hwork, hqueue] at hstep
    | _ => simp [connStep, workStep, hwork] at hstep
  | readSettles seq ok => simp [connStep, readSettles, hrunning] at hstep
  | ackRead =>
    obtain ⟨d, hidle, hnext, _⟩ := ackRead_cases hstep
    rcases hack with ⟨_, hnone⟩ | hrejected
    · simp [hnext] at hnone
    · rw [hidle] at hrejected
      cases hrejected
  | ackWrite =>
    obtain ⟨d, hwriting, _⟩ := ackWrite_cases hstep
    simp [hwriting] at hack
  | ackSend =>
    obtain ⟨d, hsending, _⟩ := ackSend_cases hstep
    simp [hsending] at hack

/-- A settled connection writes, sends and calls nothing more. -/
theorem Connection.Quiet.step (hinv : ConnInv c) (h : c.Quiet) (hsettled : c.settled = true)
    (hstep : connStep opts durable c act = some e) : e.StaysQuiet durable := by
  rcases h with hdrained | hstuck
  · exact hdrained.step hsettled hstep
  · exact hstuck.step hinv hsettled hstep

end

end OperatorRuntime.Relay
