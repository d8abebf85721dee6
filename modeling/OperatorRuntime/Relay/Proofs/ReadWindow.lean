/-
Order on one connection of the client. A run is watched (`Watch`): which
handlers have resolved, and which acknowledgement frames were sent without
the `duplicate` flag, that is after the write of the cursor and not for a
delivery that was behind it on arrival.

The cursor moves to the next sequence once its handler has resolved, or to
the end of an expired history that a welcome reports (`Advances`).
-/
import OperatorRuntime.Relay.Proofs.ClientRuns

namespace OperatorRuntime.Relay

open Lib

-- ===== watched runs

/-- The sequences whose handler resolves, or whose recovery answers `ack`. -/
def resolvedBy (c : Connection) : ConnAct → List Nat
  | .readSettles seq ok => if ok then [seq] else []
  | .work answer =>
    match c.work, answer with
    | .running d, .handler true => [d.seq]
    | .recovery d _ _, .recovery .ack => [d.seq]
    | _, _ => []
  | _ => []

/-- The delivery that `#handleDelivery` has completed and not yet
acknowledged. -/
def completes (c : Connection) (completing : Option Nat) : ConnAct → Option Nat
  | .work answer =>
    match c.work, answer with
    | .complete d, .proceed => some d.seq
    | _, _ => none
  | _ => completing

/-- The acknowledgements a step sends that are not duplicates. -/
def firstAcks (c : Connection) (completing : Option Nat) : ConnAct → List Nat
  | .ackSend =>
    match c.readAckQueue with
    | .sending d => (c.ackFrames d).map (·.seq)
    | _ => []
  | .work .proceed =>
    match c.work with
    | .sendAck d true => if completing = some d.seq then (c.ackFrames d).map (·.seq) else []
    | _ => []
  | _ => []

/-- A client, the handlers that have resolved, and of the newest connection
the delivery being completed and the acknowledgements sent. -/
structure Watch where
  client : Client
  resolved : List Nat
  completing : Option Nat
  acked : List Nat

def Watch.initial : Watch := ⟨.initial, [], none, []⟩

def watchStep (opts : ClientOptions) (w : Watch) (act : ClientAct) : Option Watch := do
  let client ← clientStep opts w.client act
  match act with
  | .conn i act => do
    let c ← w.client.conns[i]?
    some
      { client
        resolved := w.resolved ++ resolvedBy c act
        completing := if c.settled then w.completing else completes c w.completing act
        acked := w.acked ++ firstAcks c w.completing act }
  | _ => some { client, resolved := w.resolved, completing := none, acked := [] }

/-- How the durable cursor may change in one step. -/
inductive Advances (opts : ClientOptions) (w : Watch) (act : ClientAct) (t : Client) : Prop
  | stays : t.durable.lastAckedServerSeq = w.client.durable.lastAckedServerSeq →
      Advances opts w act t
  | next : t.durable.lastAckedServerSeq = w.client.durable.lastAckedServerSeq + 1 →
      t.durable.lastAckedServerSeq ∈ w.resolved → Advances opts w act t
  | expired (i : Nat) (c : Connection) (resume concurrency : Nat) :
      act = .conn i (.work .proceed) → w.client.conns[i]? = some c →
      c.work = .adoptResume resume concurrency → c.welcomed = false →
      t.durable = .ackedThrough resume → Advances opts w act t

-- ===== steps of a stage

section
variable {opts : ClientOptions} {durable : RelayState} {c : Connection} {e : Effect}
  {log : List Event}

/-- A step that completes nothing. -/
structure Plain (durable : RelayState) (c : Connection) (e : Effect) : Prop where
  cursor : e.durable.lastAckedServerSeq = durable.lastAckedServerSeq
  ack : e.conn.readAckQueue = c.readAckQueue
  completed : e.conn.completedReads = c.completedReads
  work : ∀ d, e.conn.work ≠ .complete d
  welcomed : e.conn.welcomed = false → c.welcomed = false

theorem plain_throwing : Plain durable c (throwing durable c) := by
  obtain ⟨draining, hdrain⟩ := c.drain_eq
  unfold throwing Connection.rejectMessage
  rw [hdrain]
  exact ⟨rfl, rfl, rfl, (fun _ h => nomatch h), id⟩

theorem plain_goto {work : Work} (hwork : ∀ d, work ≠ .complete d) :
    Plain durable c (goto durable c work) :=
  ⟨rfl, rfl, rfl, hwork, id⟩

theorem plain_processMessage (frame : ServerFrame) :
    Plain durable c (processMessage opts durable c frame) := by
  cases frame with
  | welcome frame =>
    simp only [processMessage, validateWelcome.eq_def]
    repeat' split
    all_goals first
      | exact plain_throwing
      | exact ⟨rfl, rfl, rfl, (fun _ h => by cases h), id⟩
  | delivery frame =>
    simp only [processMessage]
    repeat' split
    all_goals first
      | exact plain_throwing
      | exact ⟨rfl, rfl, rfl, (fun _ h => by cases h), id⟩

theorem plain_startRead (d : RelayDelivery) : Plain durable c (startRead durable c d) := by
  unfold startRead
  repeat' split
  all_goals first
    | exact plain_throwing
    | exact ⟨rfl, rfl, rfl, (fun _ h => nomatch h), id⟩

theorem plain_handleDelivery (d : RelayDelivery) :
    Plain durable c (handleDelivery opts durable c d) := by
  rw [handleDelivery.eq_def]
  repeat' split
  all_goals first
    | exact plain_throwing
    | exact ⟨rfl, rfl, rfl, (fun _ h => by cases h), id⟩

/-- What a step of the message queue does to the cursor: the completion of
a delivery, the end of an expired history, or nothing. -/
inductive WorkEffect (durable : RelayState) (c : Connection) (answer : Answer) (e : Effect) :
    Prop
  | complete (d : RelayDelivery) : c.work = .complete d → answer = .proceed →
      e = goto (.ackedThrough d.seq) c (.sendAck d true) → WorkEffect durable c answer e
  | adopt (resume concurrency : Nat) : c.work = .adoptResume resume concurrency →
      answer = .proceed → e = goto (.ackedThrough resume) c (.welcomed resume concurrency) →
      WorkEffect durable c answer e
  | resolve (d : RelayDelivery) : resolvedBy c (.work answer) = [d.seq] → answer ≠ .proceed →
      e.durable = durable → e.conn = { c with work := .complete d } →
      (∀ d, c.work ≠ .complete d) → WorkEffect durable c answer e
  | plain : Plain durable c e → (∀ d, c.work ≠ .complete d) → WorkEffect durable c answer e

/-- Each step of the message queue has one of these effects. -/
theorem workEffect {answer : Answer} (hstage : StageInv durable c log)
    (hstep : workStep opts durable c answer = some e) : WorkEffect durable c answer e := by
  have hagrees := hstage.work
  have hcase := workStep_cases hstep
  generalize hwork : c.work = work at hcase hagrees
  cases hcase with
  | idle frame queue =>
    have hplain := @plain_processMessage opts durable { c with queue, work := .idle } frame
    exact .plain ⟨hplain.cursor, hplain.ack, hplain.completed, hplain.work, hplain.welcomed⟩
      (by simp [hwork])
  | stopped | barrier | reread | expired =>
    exact .plain (plain_goto fun _ h => by cases h) (by simp [hwork])
  | welcomed =>
    exact .plain ⟨rfl, rfl, rfl, (fun _ h => by cases h), (fun h => by cases h)⟩
      (by simp [hwork])
  | readCheck d => exact .plain (plain_startRead d) (by simp [hwork])
  | handle d => exact .plain (plain_handleDelivery d) (by simp [hwork])
  | clear d state =>
    refine .plain ⟨?_, rfl, rfl, (fun _ h => by cases h), id⟩ (by simp [hwork])
    rw [← hagrees.1]
    rfl
  | mark d state marked hmarked =>
    refine .plain ⟨?_, rfl, rfl, (fun _ h => by cases h), id⟩ (by simp [hwork])
    unfold RelayState.withProcessing at hmarked
    split at hmarked
    · cases hmarked
      rw [← hagrees.1]
      rfl
    · cases hmarked
  | complete d => exact .complete d hwork rfl rfl
  | adoptResume resume concurrency => exact .adopt resume concurrency hwork rfl rfl
  | call | finish =>
    exact .plain ⟨rfl, rfl, rfl, (fun _ h => by cases h), id⟩ (by simp [hwork])
  | finishLast =>
    obtain ⟨draining, hdrain⟩ := c.drain_eq
    refine .plain ?_ (by simp [hwork])
    rw [Connection.stop, hdrain]
    exact ⟨rfl, rfl, rfl, (fun _ h => by cases h), id⟩
  | sendAck d handled =>
    refine .plain ⟨rfl, rfl, rfl, ?_, id⟩ (by simp [hwork])
    cases handled with
    | true => exact fun _ h => by cases h
    | false => exact fun _ h => by cases h
  | recovery d state saved decision =>
    cases decision with
    | stop =>
      have hplain := @plain_throwing durable c
      exact .plain ⟨hplain.cursor, hplain.ack, hplain.completed, hplain.work,
        hplain.welcomed⟩ (by simp [hwork])
    | retry => exact .plain ⟨rfl, rfl, rfl, (fun _ h => by cases h), id⟩ (by simp [hwork])
    | ack => exact .resolve d (by simp [resolvedBy, hwork]) (by simp) rfl rfl (by simp [hwork])
  | handled d => exact .resolve d (by simp [resolvedBy, hwork]) (by simp) rfl rfl (by simp [hwork])
  | throws _ _ hother =>
    exact .plain plain_throwing fun d => hwork ▸ hother d

end

-- === the live connection

/-- What the watch knows of the live connection. -/
structure Tracked (durable : RelayState) (c : Connection) (completing : Option Nat)
    (resolved acked : List Nat) : Prop where
  below : ∀ n ∈ acked, n ≤ durable.lastAckedServerSeq
  unwelcomed : c.welcomed = false → acked = []
  done : ∀ d ∈ c.completedReads, d.seq ∈ resolved
  complete : ∀ d, c.work = .complete d → d.seq ∈ resolved
  sending : ∀ d, c.readAckQueue = .sending d →
    d.seq = durable.lastAckedServerSeq ∧ ∀ n ∈ acked, n < d.seq
  completing : ∀ n, completing = some n → (∃ d, c.work = .sendAck d true ∧ d.seq = n)
    ∧ n = durable.lastAckedServerSeq ∧ ∀ k ∈ acked, k < n

/-- What a step of the live connection leaves. -/
structure TrackedStep (durable : RelayState) (c : Connection) (completing : Option Nat)
    (resolved acked : List Nat) (act : ConnAct) (e : Effect) : Prop where
  order : (acked ++ firstAcks c completing act).Pairwise (· < ·)
  tracked : Tracked e.durable e.conn (completes c completing act)
    (resolved ++ resolvedBy c act) (acked ++ firstAcks c completing act)
  cursor : e.durable.lastAckedServerSeq = durable.lastAckedServerSeq
    ∨ (e.durable.lastAckedServerSeq = durable.lastAckedServerSeq + 1
      ∧ e.durable.lastAckedServerSeq ∈ resolved)
    ∨ ∃ resume concurrency, act = .work .proceed ∧ c.work = .adoptResume resume concurrency
      ∧ c.welcomed = false ∧ e.durable = .ackedThrough resume

section
variable {opts : ClientOptions} {durable : RelayState} {c : Connection} {e : Effect}
  {log : List Event} {completing : Option Nat} {resolved acked : List Nat}

theorem mem_ackFrames {d : RelayDelivery} {n : Nat} (h : n ∈ (c.ackFrames d).map (·.seq)) :
    n = d.seq := by
  unfold Connection.ackFrames at h
  split at h
  · simpa using h
  · cases h

theorem pairwise_ackFrames (horder : acked.Pairwise (· < ·)) {d : RelayDelivery}
    (hlt : ∀ n ∈ acked, n < d.seq) : (acked ++ (c.ackFrames d).map (·.seq)).Pairwise (· < ·) := by
  apply List.pairwise_append.2
  refine ⟨horder, ?_, ?_⟩
  · unfold Connection.ackFrames
    split
    · exact List.pairwise_singleton _ _
    · exact List.Pairwise.nil
  · intro n hn k hk
    rw [mem_ackFrames hk]
    exact hlt n hn

theorem ConnInv.active_of_completed (h : ConnInv c) {d : RelayDelivery}
    (hd : d ∈ c.completedReads) : c.activeReads ≠ [] :=
  List.ne_nil_of_mem (h.active d (List.mem_append_right _ hd))

theorem ConnInv.not_sending (h : ConnInv c) (hnil : c.activeReads = []) (d : RelayDelivery) :
    c.readAckQueue ≠ .sending d := by
  intro hack
  exact h.active_of_completed (h.sending d hack).1 hnil

theorem TrackedStep.same (horder : acked.Pairwise (· < ·))
    (h : Tracked durable c completing resolved acked) {act : ConnAct} {c' : Connection}
    {acks : List Ack} {events : List Event} (hwork : c'.work = c.work)
    (hack : ∀ d, c'.readAckQueue = .sending d → c.readAckQueue = .sending d)
    (hcompleted : ∀ d ∈ c'.completedReads, d.seq ∈ resolved ++ resolvedBy c act)
    (hwelcomed : c'.welcomed = c.welcomed) (hcompletes : completes c completing act = completing)
    (hfirst : firstAcks c completing act = []) :
    TrackedStep durable c completing resolved acked act ⟨c', durable, events, acks⟩ := by
  refine ⟨?_, ?_, .inl rfl⟩
  · rw [hfirst, List.append_nil]
    exact horder
  · rw [hfirst, List.append_nil, hcompletes]
    refine ⟨h.below, ?_, hcompleted, ?_, fun d hd => h.sending d (hack d hd), ?_⟩
    · rw [hwelcomed]
      exact h.unwelcomed
    · intro d hd
      rw [hwork] at hd
      exact List.mem_append_left _ (h.complete d hd)
    · rw [hwork]
      exact h.completing

theorem completes_work {answer : Answer} (hnot : ∀ d, c.work ≠ .complete d) :
    completes c completing (.work answer) = none := by
  simp only [completes]
  split
  · next hwork => exact absurd hwork (hnot _)
  · rfl

theorem firstAcks_answer {answer : Answer} (h : answer ≠ .proceed) :
    firstAcks c completing (.work answer) = [] := by
  cases answer with
  | proceed => exact absurd rfl h
  | recovery _ | expiredRecovery _ | handler _ => rfl

theorem firstAcks_work (answer : Answer) : firstAcks c completing (.work answer) = []
    ∨ ∃ d, c.work = .sendAck d true ∧ completing = some d.seq
    ∧ firstAcks c completing (.work answer) = (c.ackFrames d).map (·.seq) := by
  by_cases hanswer : answer = .proceed
  · subst hanswer
    cases hwork : c.work with
    | sendAck d handled =>
      cases handled with
      | true =>
        by_cases hcompleting : completing = some d.seq
        · exact .inr ⟨d, rfl, hcompleting, by simp [firstAcks, hwork, hcompleting]⟩
        · exact .inl (by simp [firstAcks, hwork, hcompleting])
      | false => exact .inl (by simp [firstAcks, hwork])
    | _ => exact .inl (by simp [firstAcks, hwork])
  · exact .inl (firstAcks_answer hanswer)

/-- A step of the message queue, by its effect. -/
theorem TrackedStep.work (hinv : ConnInv c) (hstage : StageInv durable c log)
    (horder : acked.Pairwise (· < ·)) (h : Tracked durable c completing resolved acked)
    {answer : Answer} (hstep : workStep opts durable c answer = some e) :
    TrackedStep durable c completing resolved acked (.work answer) e := by
  cases workEffect hstage hstep with
  | complete d hwork hanswer heq =>
    subst hanswer heq
    have hagrees := hstage.work
    have hfits := hinv.stage
    rw [hwork] at hagrees hfits
    have hnext : d.seq = durable.lastAckedServerSeq + 1 :=
      durable.contiguous ⟨d.seq, d.id⟩ hagrees
    have hlt : ∀ n ∈ acked, n < d.seq := by
      intro n hn
      have hle := h.below n hn
      omega
    have hfirst : firstAcks c completing (.work .proceed) = [] := by
      simp [firstAcks, hwork]
    refine ⟨?_, ?_, .inr (.inl ⟨hnext, h.complete d hwork⟩)⟩
    · rw [hfirst, List.append_nil]
      exact horder
    · rw [hfirst, List.append_nil]
      refine ⟨fun n hn => Nat.le_of_lt (hlt n hn), h.unwelcomed, ?_,
        fun _ hd => (nomatch hd), ?_, ?_⟩
      · exact fun x hx => List.mem_append_left _ (h.done x hx)
      · exact fun x hx => absurd hx (hinv.not_sending hfits.1 x)
      · intro n hn
        simp only [completes, hwork, Option.some.injEq] at hn
        subst hn
        exact ⟨⟨d, rfl, rfl⟩, rfl, hlt⟩
  | adopt resume concurrency hwork hanswer heq =>
    subst hanswer heq
    have hfits := hinv.stage
    rw [hwork] at hfits
    have hnil := h.unwelcomed hfits
    have hfirst : firstAcks c completing (.work .proceed) = [] := by
      simp [firstAcks, hwork]
    refine ⟨?_, ?_, .inr (.inr ⟨resume, concurrency, rfl, hwork, hfits, rfl⟩)⟩
    · rw [hfirst, List.append_nil]
      exact horder
    · rw [hfirst, List.append_nil, hnil]
      refine ⟨fun _ hn => (nomatch hn), fun _ => rfl, ?_, fun _ hd => (nomatch hd), ?_, ?_⟩
      · exact fun x hx => List.mem_append_left _ (h.done x hx)
      · exact fun x hx => absurd hx (hinv.not_sending (hinv.handshake hfits) x)
      · intro n hn
        simp [completes, hwork] at hn
  | resolve d hresolved hanswer hdurable hconn hnot =>
    obtain ⟨conn, durable', events, acks⟩ := e
    dsimp only at hdurable hconn
    subst hdurable hconn
    have hfirst := @firstAcks_answer c completing answer hanswer
    refine ⟨?_, ?_, .inl rfl⟩
    · rw [hfirst, List.append_nil]
      exact horder
    · rw [hfirst, List.append_nil, hresolved]
      refine ⟨h.below, h.unwelcomed, ?_, ?_, h.sending, ?_⟩
      · exact fun x hx => List.mem_append_left _ (h.done x hx)
      · rintro x ⟨⟩
        exact List.mem_append_right _ (List.mem_singleton.2 rfl)
      · intro n hn
        rw [completes_work hnot] at hn
        cases hn
  | plain hplain hnot =>
    have hcompletes := @completes_work c completing answer hnot
    have hdone : ∀ d ∈ e.conn.completedReads, d.seq ∈ resolved ++ resolvedBy c (.work answer) := by
      rw [hplain.completed]
      exact fun x hx => List.mem_append_left _ (h.done x hx)
    have hcursor := hplain.cursor
    rcases @firstAcks_work c completing answer with hfirst | ⟨d, hwork, hsome, hfirst⟩
    · refine ⟨?_, ?_, .inl hcursor⟩
      · rw [hfirst, List.append_nil]
        exact horder
      · rw [hfirst, List.append_nil, hcompletes]
        refine ⟨?_, fun hw => h.unwelcomed (hplain.welcomed hw), hdone,
          fun x hx => absurd hx (hplain.work x), ?_, fun _ hn => (nomatch hn)⟩
        · rw [hcursor]
          exact h.below
        · rw [hplain.ack, hcursor]
          exact h.sending
    · obtain ⟨-, hseq, hlt⟩ := h.completing d.seq hsome
      have hfits := hinv.stage
      rw [hwork] at hfits
      refine ⟨?_, ?_, .inl hcursor⟩
      · rw [hfirst]
        exact pairwise_ackFrames horder hlt
      · rw [hfirst, hcompletes]
        refine ⟨?_, ?_, hdone, fun x hx => absurd hx (hplain.work x), ?_,
          fun _ hn => (nomatch hn)⟩
        · intro n hn
          rw [hcursor]
          rcases List.mem_append.1 hn with hn | hn
          · exact h.below n hn
          · rw [mem_ackFrames hn, hseq]
        · intro hw
          have hwelcomed := hplain.welcomed hw
          rw [hfits.2] at hwelcomed
          cases hwelcomed
        · rw [hplain.ack]
          exact fun x hx => absurd hx (hinv.not_sending hfits.1 x)

theorem TrackedStep.step (hinv : ConnInv c) (hstage : StageInv durable c log)
    (horder : acked.Pairwise (· < ·)) (h : Tracked durable c completing resolved acked)
    {act : ConnAct} (hstep : connStep opts durable c act = some e) :
    TrackedStep durable c completing resolved acked act e := by
  have hdone : ∀ act, ∀ d ∈ c.completedReads, d.seq ∈ resolved ++ resolvedBy c act :=
    fun _ d hd => List.mem_append_left _ (h.done d hd)
  obtain ⟨draining, hdrain⟩ := c.drain_eq
  cases act with
  | hello | receive _ =>
    simp only [connStep] at hstep
    split at hstep
    · cases hstep
    · cases hstep
      exact .same horder h rfl (fun _ hd => hd) (hdone _) rfl rfl rfl
  | closeSocket =>
    simp only [connStep, Option.some.injEq] at hstep
    subst hstep
    exact .same horder h rfl (fun _ hd => hd) (hdone _) rfl rfl rfl
  | disconnect | stop =>
    simp only [connStep] at hstep
    split at hstep
    · cases hstep
    · cases hstep
      simp only [Connection.stop, hdrain]
      exact .same horder h rfl (fun _ hd => hd) (hdone _) rfl rfl rfl
  | settle =>
    simp only [connStep] at hstep
    split at hstep
    · cases hstep
      exact .same horder h rfl (fun _ hd => hd) (hdone _) rfl rfl rfl
    · cases hstep
  | work answer => exact .work hinv hstage horder h hstep
  | readSettles seq ok =>
    obtain ⟨d, hd, rfl, hdurable, hevents, hacks, hconn⟩ := readSettles_cases hstep
    obtain ⟨conn, durable', events, acks⟩ := e
    dsimp only at hdurable hconn
    subst hdurable
    rcases hconn with ⟨rfl, rfl⟩ | ⟨rfl, rfl⟩
    · refine .same horder h rfl (fun _ hd => hd) ?_ rfl rfl rfl
      intro x hx
      rcases List.mem_append.1 hx with hx | hx
      · exact hdone _ x hx
      · rw [List.mem_singleton.1 hx]
        exact List.mem_append_right _ (List.mem_singleton.2 rfl)
    · exact .same horder h rfl (fun _ hd => hd) (hdone _) rfl rfl rfl
  | ackRead =>
    obtain ⟨d, hidle, -, hdurable, -, -, hconn⟩ := ackRead_cases hstep
    obtain ⟨conn, durable', events, acks⟩ := e
    dsimp only at hdurable hconn
    subst hdurable
    rcases hconn with ⟨-, -, rfl⟩ | rfl
    · exact .same horder h rfl (fun _ hd => by cases hd) (hdone _) rfl rfl rfl
    · exact .same horder h rfl (fun _ hd => by cases hd) (hdone _) rfl rfl rfl
  | ackWrite =>
    obtain ⟨d, hwriting, rfl⟩ := ackWrite_cases hstep
    have hnext := (hstage.ack d hwriting).2
    have hmem := (hinv.writing d hwriting).1
    obtain ⟨hagrees, -, hwelcomed⟩ := hinv.idle_of_active (hinv.active_of_completed hmem)
      durable durable
    have hlt : ∀ n ∈ acked, n < d.seq := by
      intro n hn
      have hle := h.below n hn
      omega
    refine ⟨?_, ?_, .inr (.inl ⟨hnext.symm, h.done d hmem⟩)⟩
    · rw [show firstAcks c completing .ackWrite = [] from rfl, List.append_nil]
      exact horder
    · rw [show firstAcks c completing .ackWrite = [] from rfl, List.append_nil]
      refine ⟨fun n hn => Nat.le_of_lt (hlt n hn), h.unwelcomed, hdone _, ?_, ?_, ?_⟩
      · exact fun x hx => List.mem_append_left _ (h.complete x hx)
      · rintro x ⟨⟩
        exact ⟨rfl, hlt⟩
      · intro n hn
        obtain ⟨⟨x, hwork, -⟩, -⟩ := h.completing n hn
        have hfits := hinv.stage
        rw [hwork] at hfits
        exact absurd hfits.1 (hinv.active_of_completed hmem)
  | ackSend =>
    obtain ⟨d, hsending, rfl⟩ := ackSend_cases hstep
    obtain ⟨hseq, hlt⟩ := h.sending d hsending
    have hfirst : firstAcks c completing .ackSend = (c.ackFrames d).map (·.seq) := by
      simp [firstAcks, hsending]
    have hactive := hinv.active_of_completed (hinv.sending d hsending).1
    refine ⟨?_, ?_, .inl rfl⟩
    · rw [hfirst]
      exact pairwise_ackFrames horder hlt
    · rw [hfirst]
      refine ⟨?_, ?_, ?_, ?_, fun _ hd => (by cases hd), ?_⟩
      · intro n hn
        rcases List.mem_append.1 hn with hn | hn
        · exact h.below n hn
        · rw [mem_ackFrames hn, hseq]
      · intro hw
        exact absurd (hinv.handshake hw) hactive
      · intro x hx
        exact hdone _ x (List.mem_filter.1 hx).1
      · exact fun x hx => List.mem_append_left _ (h.complete x hx)
      · intro n hn
        obtain ⟨⟨x, hwork, -⟩, -⟩ := h.completing n hn
        have hfits := hinv.stage
        rw [hwork] at hfits
        exact absurd hfits.1 hactive

end

-- ===== the client

/-- The watched client: the watch knows the live connection. -/
structure WatchInv (w : Watch) : Prop where
  client : ClientInv w.client
  order : w.acked.Pairwise (· < ·)
  live : ∀ c ∈ w.client.conns, c.settled = false →
    Tracked w.client.durable c w.completing w.resolved w.acked

section
variable {opts : ClientOptions} {w w' : Watch} {t : Client} {act : ClientAct}

theorem WatchInv.initial : WatchInv Watch.initial where
  client := ClientInv.initial
  order := List.Pairwise.nil
  live := fun _ hc => nomatch hc

theorem watchStep_client : (∃ w', watchStep opts w act = some w' ∧ w'.client = t)
    ↔ clientStep opts w.client act = some t := by
  unfold watchStep
  cases hstep : clientStep opts w.client act with
  | none => simp
  | some u =>
    cases act with
    | connect | crash => simp
    | conn i act =>
      obtain ⟨c, e, hc, -⟩ := clientStep_conn hstep
      simp [hc]

theorem firstAcks_settled {c : Connection} (hinv : ConnInv c) (h : c.settled = true)
    (completing : Option Nat) (act : ConnAct) : firstAcks c completing act = [] := by
  have hframes : ∀ d, c.ackFrames d = [] := by
    intro d
    unfold Connection.ackFrames
    rw [hinv.closed h]
    rfl
  unfold firstAcks
  split
  · split
    · rw [hframes]
      rfl
    · rfl
  · split
    · split
      · rw [hframes]
        rfl
      · rfl
    · rfl
  · rfl

theorem Tracked.mono {durable : RelayState} {c : Connection} {completing : Option Nat}
    {resolved acked : List Nat} (h : Tracked durable c completing resolved acked)
    (more : List Nat) : Tracked durable c completing (resolved ++ more) acked :=
  ⟨h.below, h.unwelcomed, fun d hd => List.mem_append_left _ (h.done d hd),
    fun d hd => List.mem_append_left _ (h.complete d hd), h.sending, h.completing⟩

/-- An event at one of the connections. -/
theorem WatchInv.conn (h : WatchInv w) {i : Nat} {act : ConnAct}
    (hcond : NoEarlierRead w.client (.conn i act))
    (hstep : watchStep opts w (.conn i act) = some w') :
    WatchInv w' ∧ Advances opts w (.conn i act) w'.client := by
  have hclient := watchStep_client.1 ⟨w', hstep, rfl⟩
  obtain ⟨c, e, hc, he, hdurable, hconns, -⟩ := clientStep_conn hclient
  have hmem := List.mem_of_getElem? hc
  have hinv := h.client.conns c hmem
  have hnext := h.client.step hcond hclient
  have heq : w' = ⟨w'.client, w.resolved ++ resolvedBy c act,
      if c.settled then w.completing else completes c w.completing act,
      w.acked ++ firstAcks c w.completing act⟩ := by
    unfold watchStep at hstep
    rw [hclient] at hstep
    simp only [hc, bind, Option.bind] at hstep
    exact (Option.some.inj hstep).symm
  obtain ⟨client, resolved, completing, acked⟩ := w'
  injection heq with _ hresolved hcompleting hacked
  dsimp only at hdurable hconns hnext ⊢
  cases hlive : c.settled with
  | true =>
    obtain ⟨hsilent, hsettled', -⟩ := (h.client.quiet c hmem hlive).step hinv hlive he
    have hdurable' : client.durable = w.client.durable := hdurable.trans hsilent.durable
    rw [hlive, if_pos rfl] at hcompleting
    rw [firstAcks_settled hinv hlive, List.append_nil] at hacked
    subst hresolved hcompleting hacked
    refine ⟨⟨hnext, h.order, ?_⟩, .stays (by rw [hdurable'])⟩
    intro x hx hset
    dsimp only at hx ⊢
    rw [hconns] at hx
    rw [hdurable']
    rcases List.mem_or_eq_of_mem_set hx with hold | rfl
    · exact (h.live x hold hset).mono _
    · rw [hsettled'] at hset
      cases hset
  | false =>
    have htracked := TrackedStep.step hinv (h.client.live c hmem hlive) h.order
      (h.live c hmem hlive) he
    rw [hlive] at hcompleting
    simp only [Bool.false_eq_true, if_false] at hcompleting
    subst hresolved hcompleting hacked
    refine ⟨⟨hnext, htracked.order, ?_⟩, ?_⟩
    · intro x hx hset
      dsimp only at hx ⊢
      rw [hconns] at hx
      rw [hdurable]
      obtain ⟨j, hj⟩ := List.mem_iff_getElem?.1 hx
      rcases getElem?_set_cases hj with ⟨-, rfl⟩ | ⟨hne, hold⟩
      · exact htracked.tracked
      · -- The newest connection is the live one.
        obtain rfl : i = 0 := by
          by_contra hi
          rw [h.client.older i c hi hc] at hlive
          cases hlive
        rw [h.client.older j x hne hold] at hset
        cases hset
    · rcases htracked.cursor with hsame | ⟨hsucc, hin⟩ | ⟨resume, concurrency, rfl, hwork,
        hwelcomed, hadopt⟩
      · exact .stays (by rw [hdurable, hsame])
      · exact .next (by rw [hdurable, hsucc]) (by rw [hdurable]; exact hin)
      · exact .expired i c resume concurrency rfl hc hwork hwelcomed (by rw [hdurable, hadopt])

/-- One event under watch; the cursor advances through the window in order. -/
theorem WatchInv.step (h : WatchInv w) (hcond : NoEarlierRead w.client act)
    (hstep : watchStep opts w act = some w') : WatchInv w' ∧ Advances opts w act w'.client := by
  have hclient := watchStep_client.1 ⟨w', hstep, rfl⟩
  have hnext := h.client.step hcond hclient
  cases act with
  | conn i act => exact h.conn hcond hstep
  | crash =>
    obtain rfl := Option.some.inj hstep
    exact ⟨⟨hnext, List.Pairwise.nil, fun _ hc => by cases hc⟩, .stays rfl⟩
  | connect =>
    unfold watchStep at hstep
    rw [hclient] at hstep
    have heq := Option.some.inj hstep
    obtain ⟨client, resolved, completing, acked⟩ := w'
    injection heq with _ hresolved hcompleting hacked
    subst hresolved hcompleting hacked
    simp only [clientStep] at hclient
    split at hclient
    · next hall =>
      obtain rfl := Option.some.inj hclient
      simp only [Bool.and_eq_true, List.all_eq_true] at hall
      refine ⟨⟨hnext, List.Pairwise.nil, ?_⟩, .stays rfl⟩
      intro c hc hset
      rcases List.mem_cons.1 hc with rfl | hold
      · exact ⟨fun _ hn => (by cases hn), fun _ => rfl, fun _ hd => (by cases hd),
          fun _ hd => (by cases hd), fun _ hd => (by cases hd), fun _ hn => (by cases hn)⟩
      · rw [hall.1 c hold] at hset
        cases hset
    · cases hclient

theorem ClientInv.invoked_next {s : Client} (h : ClientInv s) {d : RelayDelivery}
    (hstep : clientStep opts s act = some t) (hlog : t.log = s.log ++ [Event.invoked d]) :
    d.seq = s.durable.lastAckedServerSeq + 1 :=
  s.durable.contiguous ⟨d.seq, d.id⟩ (h.invoked hstep hlog)

end

-- ===== runs

/-- In every run, with any frames, negotiated concurrency, callbacks,
reconnects and crashes, in which a read handler rejects only after the
reads accepted before it on its connection wrote their cursor: the
acknowledgements of a connection, duplicates apart, go out in strictly
increasing order; the cursor moves only to the next sequence, whose handler
has resolved, or to the end of an expired history before the welcome; and
`#handleDelivery` calls a handler only for the sequence after the cursor. -/
theorem read_window_sound (opts : ClientOptions) (acts : List ClientAct) (w : Watch)
    (hrun : Run (Where (stepsOf (watchStep opts)) fun w => NoEarlierRead w.client)
      Watch.initial acts w) : w.acked.Pairwise (· < ·)
    ∧ (∀ act t, NoEarlierRead w.client act → clientStep opts w.client act = some t →
        Advances opts w act t)
    ∧ ∀ act t d, clientStep opts w.client act = some t → t.log = w.client.log ++ [Event.invoked d] →
        d.seq = w.client.durable.lastAckedServerSeq + 1 := by
  have hinv : WatchInv w := hrun.invariant WatchInv.initial
    fun h hstep => (h.step hstep.2 hstep.1).1
  refine ⟨hinv.order, ?_, fun _ _ _ hstep hlog => hinv.client.invoked_next hstep hlog⟩
  intro act t hcond hstep
  obtain ⟨w', hw, rfl⟩ := watchStep_client.2 hstep
  exact (hinv.step hcond hw).2

-- ------------------------------------------------------- acknowledged again

/-- Read 1 is acknowledged, and delivered and acknowledged again. -/
def repeatedTrace : List ClientAct :=
  connectAt 0 ++ acceptRead 1 ++ finishRead 1 ++ acceptRead 1
    ++ ([.conn 0 (.work .proceed)] : List ClientAct)

/-- A delivery that is sent twice is acknowledged once. -/
theorem read_window_sound_repeated :
    ∃ w, Run (Where (stepsOf (watchStep readingOptions)) fun w => NoEarlierRead w.client)
        Watch.initial repeatedTrace w ∧ w.acked = [1] ∧ w.acked.Pairwise (· < ·) := by
  have hacked : (exec (watchStep readingOptions) Watch.initial repeatedTrace).map (·.acked)
      = some [1] := by
    decide
  obtain ⟨w, hexec, hw⟩ := Option.map_eq_some_iff.1 hacked
  have hrun : Run (Where (stepsOf (watchStep readingOptions)) fun w => NoEarlierRead w.client)
      Watch.initial repeatedTrace w :=
    run_where_of_exec hexec fun w act hact =>
      noEarlierRead_of_resolves (List.all_eq_true.1
        (by decide : repeatedTrace.all (·.resolves) = true) act hact)
  exact ⟨w, hrun, hw, (read_window_sound _ _ _ hrun).1⟩

/-- A welcome that reports the history expired through 5. -/
def expiredTrace : List ClientAct :=
  [.connect, .conn 0 .hello, .conn 0 (.receive (.welcome
     { resumeFromSeq := .int 5, expiredThroughSeq := some (.int 5) })),
   .conn 0 (.work .proceed)]

/-- Two frames go out for sequence 1, and the cursor goes from 0 to 5 in
one step, with no handler rejected. -/
theorem duplicate_ack_and_expired_history :
    (∃ s, Run (stepsOf (clientStep readingOptions)) Client.initial repeatedTrace s
      ∧ s.acks.map (·.seq) = [1, 1])
    ∧ ∃ s t, Run (stepsOf (clientStep readingOptions)) Client.initial expiredTrace s
    ∧ clientStep readingOptions s (.conn 0 (.work .proceed)) = some t
    ∧ s.durable.lastAckedServerSeq = 0 ∧ t.durable.lastAckedServerSeq = 5 := by
  have hacks : (exec (clientStep readingOptions) Client.initial repeatedTrace).map
      (fun s => s.acks.map (·.seq)) = some [1, 1] := by
    decide
  have hcursor : ((exec (clientStep readingOptions) Client.initial expiredTrace).bind fun s =>
      (clientStep readingOptions s (.conn 0 (.work .proceed))).map fun t =>
        (s.durable.lastAckedServerSeq, t.durable.lastAckedServerSeq)) = some (0, 5) := by
    decide
  obtain ⟨s, hexec, hs⟩ := Option.map_eq_some_iff.1 hacks
  obtain ⟨u, hexec', hu⟩ := Option.bind_eq_some_iff.1 hcursor
  obtain ⟨t, hstep, ht⟩ := Option.map_eq_some_iff.1 hu
  injection ht with hbefore hafter
  exact ⟨⟨s, run_of_exec hexec, hs⟩, u, t, run_of_exec hexec', hstep, hbefore, hafter⟩

end OperatorRuntime.Relay
