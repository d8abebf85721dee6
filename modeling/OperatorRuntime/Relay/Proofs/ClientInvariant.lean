/-
What holds inside one connection of the client, whatever the frames, the
callbacks and the rest of the process do.

The reads in flight are the window from `nextAckSeq` to
`nextReceiveSeq - 1`; `#handleDelivery` runs only while the window is
empty. A settled connection is `Quiet` when nothing it still has pending
can reach a durable write.
-/
import Mathlib.Data.List.Nodup
import Mathlib.Data.List.Range
import OperatorRuntime.Relay.Client

namespace OperatorRuntime.Relay

-- ===== work, by kind

/-- When a stage of the message queue can be reached: the handshake before
the welcome, deliveries after it, `#handleDelivery` while no read is
active. -/
def Work.Fits (activeReads : List Nat) (welcomed : Bool) : Work → Prop
  | .idle => True
  | .expiredRecovery .. | .adoptResume .. | .welcomed .. => welcomed = false
  | .readCheck _ | .barrier _ | .sendAck _ false => welcomed = true
  | _ => activeReads = [] ∧ welcomed = true

-- ===== one connection

structure ConnInv (c : Connection) : Prop where
  window : c.activeReads = List.range' c.nextAckSeq c.activeReads.length
  received : c.nextReceiveSeq = c.nextAckSeq + c.activeReads.length
  distinct : ((c.runningReads ++ c.completedReads).map (·.seq)).Nodup
  active : ∀ d ∈ c.runningReads ++ c.completedReads, d.seq ∈ c.activeReads
  writing : ∀ d, c.readAckQueue = .writing d → d ∈ c.completedReads ∧ d.seq = c.nextAckSeq
  sending : ∀ d, c.readAckQueue = .sending d → d ∈ c.completedReads ∧ d.seq = c.nextAckSeq
  stage : c.work.Fits c.activeReads c.welcomed
  handshake : c.welcomed = false → c.activeReads = []
  closed : c.settled = true → c.socketOpen = false

namespace ConnInv

variable {c : Connection}

theorem new (number : Nat) (state : RelayState) : ConnInv (Connection.new number state) where
  window := rfl
  received := rfl
  distinct := List.nodup_nil
  active := by simp [Connection.new]
  writing := by simp [Connection.new]
  sending := by simp [Connection.new]
  stage := trivial
  handshake := by simp [Connection.new]
  closed := by simp [Connection.new]

theorem mem_active (h : ConnInv c) {n : Nat} :
    n ∈ c.activeReads ↔ c.nextAckSeq ≤ n ∧ n < c.nextReceiveSeq := by
  rw [h.window, List.mem_range'_1, h.received]

theorem no_reads (h : ConnInv c) (hnil : c.activeReads = []) :
    c.runningReads = [] ∧ c.completedReads = []
    ∧ (c.readAckQueue = .idle ∨ c.readAckQueue = .rejected) := by
  have hempty : c.runningReads ++ c.completedReads = [] := by
    rw [List.eq_nil_iff_forall_not_mem]
    intro d hd
    have := h.active d hd
    rw [hnil] at this
    cases this
  obtain ⟨hrunning, hcompleted⟩ := List.append_eq_nil_iff.1 hempty
  refine ⟨hrunning, hcompleted, ?_⟩
  cases hack : c.readAckQueue with
  | idle => exact .inl rfl
  | rejected => exact .inr rfl
  | writing d =>
    have := (h.writing d hack).1
    rw [hcompleted] at this
    cases this
  | sending d =>
    have := (h.sending d hack).1
    rw [hcompleted] at this
    cases this

theorem goto (h : ConnInv c) {work : Work} (hfits : work.Fits c.activeReads c.welcomed) :
    ConnInv { c with work } :=
  { h with stage := hfits }

theorem drain (h : ConnInv c) : ConnInv c.drain := by
  rw [Connection.drain]
  split
  · exact h
  · exact { h with }

theorem stop (h : ConnInv c) : ConnInv c.stop :=
  { h.drain with }

theorem fail (h : ConnInv c) : ConnInv c.fail :=
  { h with closed := fun _ => rfl }

theorem rejectMessage (h : ConnInv c) : ConnInv c.rejectMessage :=
  { h.drain with stage := trivial }

theorem restart (h : ConnInv c) (hnil : c.activeReads = []) (seq : Nat) :
    ConnInv { c with nextReceiveSeq := seq, nextAckSeq := seq, work := .idle } := by
  obtain ⟨hrunning, hcompleted, hack⟩ := h.no_reads hnil
  exact { h with
    window := by simp [hnil]
    received := by simp [hnil]
    writing := by
      intro d hd
      rcases hack with hidle | hrejected
      · simp [hidle] at hd
      · simp [hrejected] at hd
    sending := by
      intro d hd
      rcases hack with hidle | hrejected
      · simp [hidle] at hd
      · simp [hrejected] at hd
    stage := trivial }

variable {d : RelayDelivery}

theorem startRead (h : ConnInv c) (hwelcomed : c.welcomed = true)
    (hseq : d.seq = c.nextReceiveSeq) :
    ConnInv { c with
      nextReceiveSeq := c.nextReceiveSeq + 1
      activeReads := c.activeReads ++ [d.seq]
      runningReads := c.runningReads ++ [d]
      work := .idle } := by
  have hnew : d.seq ∉ c.activeReads := by
    rw [h.mem_active]
    omega
  have hreceived := h.received
  exact { h with
    window := by
      rw [List.length_append, List.length_singleton, List.range'_concat]
      simp only [Nat.one_mul]
      rw [← hreceived, ← hseq, ← h.window]
    received := by
      simp only [List.length_append, List.length_singleton]
      omega
    distinct := by
      rw [List.append_assoc, List.singleton_append, List.map_append,
        List.map_cons, List.nodup_middle, List.nodup_cons, ← List.map_append]
      refine ⟨?_, h.distinct⟩
      intro hin
      obtain ⟨e, he, heq⟩ := List.mem_map.1 hin
      exact hnew (heq ▸ h.active e he)
    active := by
      intro e he
      simp only [List.mem_append, List.mem_singleton] at he ⊢
      rcases he with (hrunning | rfl) | hcompleted
      · exact .inl (h.active e (List.mem_append_left _ hrunning))
      · exact .inr rfl
      · exact .inl (h.active e (List.mem_append_right _ hcompleted))
    stage := trivial
    handshake := by simp [hwelcomed] }

theorem completeRead (h : ConnInv c) (hd : d ∈ c.runningReads) :
    ConnInv { c with
      runningReads := c.runningReads.filter fun e => e.seq != d.seq
      completedReads := c.completedReads ++ [d] } := by
  have hdistinct := h.distinct
  rw [List.map_append, List.nodup_append] at hdistinct
  obtain ⟨hrunning, hcompleted, hdisjoint⟩ := hdistinct
  exact { h with
    distinct := by
      rw [List.map_append, List.map_append, List.nodup_append, List.nodup_append]
      refine ⟨?_, ⟨hcompleted, by simp, ?_⟩, ?_⟩
      · exact hrunning.sublist (List.Sublist.map _ List.filter_sublist)
      · rintro a ha b hb rfl
        obtain rfl : a = d.seq := by simpa using hb
        exact hdisjoint _ (List.mem_map_of_mem hd) _ ha rfl
      · rintro a ha b hb rfl
        obtain ⟨e, he, rfl⟩ := List.mem_map.1 ha
        obtain ⟨hein, hne⟩ := List.mem_filter.1 he
        rcases List.mem_append.1 hb with hold | hnew
        · exact hdisjoint _ (List.mem_map_of_mem hein) _ hold rfl
        · have : e.seq = d.seq := by simpa using hnew
          simp [this] at hne
    active := by
      intro e he
      simp only [List.mem_append, List.mem_filter, List.mem_singleton] at he
      rcases he with ⟨hein, _⟩ | hold | rfl
      · exact h.active e (List.mem_append_left _ hein)
      · exact h.active e (List.mem_append_right _ hold)
      · exact h.active e (List.mem_append_left _ hd)
    writing := fun e he =>
      ⟨List.mem_append_left _ (h.writing e he).1, (h.writing e he).2⟩
    sending := fun e he =>
      ⟨List.mem_append_left _ (h.sending e he).1, (h.sending e he).2⟩ }

theorem dropRead (h : ConnInv c) (seq : Nat) : ConnInv { c with
      runningReads := c.runningReads.filter fun e => e.seq != seq } :=
  { h with
    distinct := by
      refine h.distinct.sublist (List.Sublist.map _ ?_)
      exact List.filter_sublist.append_right _
    active := by
      intro e he
      refine h.active e ?_
      rcases List.mem_append.1 he with hrunning | hcompleted
      · exact List.mem_append_left _ (List.mem_filter.1 hrunning).1
      · exact List.mem_append_right _ hcompleted }

theorem ackRead (h : ConnInv c) (hack : c.readAckQueue = .sending d) :
    ConnInv { c with
      readAckQueue := .idle
      completedReads := c.completedReads.filter fun e => e.seq != d.seq
      activeReads := c.activeReads.filter fun n => n != d.seq
      nextAckSeq := d.seq + 1 } := by
  obtain ⟨hmem, hseq⟩ := h.sending d hack
  have hactive := h.active d (List.mem_append_right _ hmem)
  obtain ⟨n, hn⟩ : ∃ n, c.activeReads.length = n + 1 := by
    cases hlen : c.activeReads.length with
    | zero =>
      rw [List.length_eq_zero_iff] at hlen
      rw [hlen] at hactive
      cases hactive
    | succ n => exact ⟨n, rfl⟩
  have hrest : c.activeReads.filter (fun n => n != d.seq) = List.range' (d.seq + 1) n := by
    rw [h.window, hn, List.range'_succ, ← hseq, List.filter_cons]
    simp only [bne_self_eq_false, Bool.false_eq_true, if_false]
    rw [List.filter_eq_self]
    intro m hm
    rw [List.mem_range'_1] at hm
    simp only [bne_iff_ne, ne_eq]
    omega
  have hreceived := h.received
  exact { h with
    window := by
      simp only [hrest, List.length_range']
    received := by
      simp only [hrest, List.length_range']
      omega
    distinct := by
      refine h.distinct.sublist (List.Sublist.map _ ?_)
      exact List.filter_sublist.append_left _
    active := by
      intro e he
      rw [List.mem_filter]
      rcases List.mem_append.1 he with hrunning | hcompleted
      · refine ⟨h.active e (List.mem_append_left _ hrunning), ?_⟩
        -- The acknowledged read is completed, so no running one shares it.
        have hdistinct := h.distinct
        rw [List.map_append, List.nodup_append] at hdistinct
        simpa using hdistinct.2.2 _ (List.mem_map_of_mem hrunning) _
          (List.mem_map_of_mem hmem)
      · obtain ⟨hein, hne⟩ := List.mem_filter.1 hcompleted
        exact ⟨h.active e (List.mem_append_right _ hein), hne⟩
    writing := by simp
    sending := by simp
    stage := by
      have hstage := h.stage
      revert hstage
      cases c.work with
      | sendAck e handled => cases handled <;> simp +contextual [Work.Fits]
      | _ => simp +contextual [Work.Fits]
    handshake := by
      intro hwelcomed
      have := h.handshake hwelcomed
      simp [this] }

end ConnInv

/-- A step that leaves the outside world alone. -/
structure Effect.Silent (e : Effect) (durable : RelayState) : Prop where
  durable : e.durable = durable
  events : e.events = []
  acks : e.acks = []

-- === every step keeps it

section
variable {opts : ClientOptions} {durable : RelayState} {c : Connection} {e : Effect}

theorem ConnInv.validateWelcome (h : ConnInv c) (hnew : c.welcomed = false) (frame : WelcomeFrame) :
    ConnInv (validateWelcome opts durable c frame).conn := by
  have hgoto : ∀ {work : Work}, work.Fits c.activeReads c.welcomed →
      ConnInv (Relay.goto durable c work).conn := h.goto
  have hthrow : ConnInv (throwing durable c).conn := h.rejectMessage
  rw [Relay.validateWelcome.eq_def]
  split
  · split
    · exact hthrow
    · split
      · split
        · exact hthrow
        · exact hgoto hnew
      · split
        · exact hthrow
        · split
          · exact hgoto hnew
          · split
            · exact hthrow
            · exact hgoto hnew
  · exact hthrow

theorem ConnInv.processMessage (h : ConnInv c) (frame : ServerFrame) :
    ConnInv (processMessage opts durable c frame).conn := by
  have hthrow : ConnInv (throwing durable c).conn := h.rejectMessage
  cases frame with
  | welcome frame =>
    rw [Relay.processMessage]
    split
    · exact hthrow
    · next hnew => exact h.validateWelcome (by simpa using hnew) frame
  | delivery frame =>
    rw [Relay.processMessage]
    split
    · exact hthrow
    · next hwelcomed =>
      have hwelcomed : c.welcomed = true := by simpa using hwelcomed
      split
      · exact hthrow
      · split
        · exact hthrow
        · split
          · exact h.goto hwelcomed
          · split
            · next hempty =>
              exact h.goto ⟨List.isEmpty_iff.1 hempty, hwelcomed⟩
            · exact h.goto hwelcomed

theorem ConnInv.handleDelivery (h : ConnInv c) (hnil : c.activeReads = [] ∧ c.welcomed = true)
    (d : RelayDelivery) : ConnInv (handleDelivery opts durable c d).conn := by
  have hthrow : ConnInv (throwing durable c).conn := h.rejectMessage
  rw [Relay.handleDelivery.eq_def]
  split
  · exact h.goto hnil
  · split
    · exact hthrow
    · split
      · exact h.goto hnil
      · split
        · exact hthrow
        · exact h.goto hnil

/-- What the message queue does with an answer, by the work it is at. -/
inductive WorkCase (opts : ClientOptions) (durable : RelayState) (c : Connection) :
    Work → Answer → Effect → Prop
  | idle (frame : ServerFrame) (queue : List ServerFrame) : c.queue = frame :: queue →
      WorkCase opts durable c .idle .proceed
        (processMessage opts durable { c with queue, work := .idle } frame)
  | adoptResume (resume concurrency : Nat) :
      WorkCase opts durable c (.adoptResume resume concurrency) .proceed
        (goto (.ackedThrough resume) c (.welcomed resume concurrency))
  | stopped (resume concurrency : Nat) :
      WorkCase opts durable c (.welcomed resume concurrency) .proceed (goto durable c .idle)
  | welcomed (resume concurrency : Nat) :
      WorkCase opts durable c (.welcomed resume concurrency) .proceed
        (goto durable
          { c with
            welcomed := true
            readConcurrency := concurrency
            nextReceiveSeq := resume + 1
            nextAckSeq := resume + 1 } .idle)
  | readCheck (d : RelayDelivery) :
      WorkCase opts durable c (.readCheck d) .proceed (startRead durable c d)
  | barrier (d : RelayDelivery) : c.activeReads = [] →
      WorkCase opts durable c (.barrier d) .proceed (goto durable c (.handle d))
  | handle (d : RelayDelivery) :
      WorkCase opts durable c (.handle d) .proceed (handleDelivery opts durable c d)
  | clear (d : RelayDelivery) (state : RelayState) :
      WorkCase opts durable c (.clear d state) .proceed
        (goto { state with processing := none, contiguous := by simp } c (.reread d))
  | reread (d : RelayDelivery) :
      WorkCase opts durable c (.reread d) .proceed (goto durable c (.mark d durable))
  | mark (d : RelayDelivery) (state marked : RelayState) :
      state.withProcessing { seq := d.seq, id := d.id } = some marked →
      WorkCase opts durable c (.mark d state) .proceed (goto marked c (.call d))
  | call (d : RelayDelivery) :
      WorkCase opts durable c (.call d) .proceed
        { goto durable c (.running d) with events := [.invoked d] }
  | complete (d : RelayDelivery) :
      WorkCase opts durable c (.complete d) .proceed
        (goto (.ackedThrough d.seq) c (.sendAck d true))
  | sendAck (d : RelayDelivery) (handled : Bool) :
      WorkCase opts durable c (.sendAck d handled) .proceed
        { goto durable c (if handled then .finish d else .idle) with acks := c.ackFrames d }
  | finish (d : RelayDelivery) :
      WorkCase opts durable c (.finish d) .proceed
        (goto durable
          { c with
            nextReceiveSeq := durable.lastAckedServerSeq + 1
            nextAckSeq := durable.lastAckedServerSeq + 1 } .idle)
  | finishLast (d : RelayDelivery) :
      WorkCase opts durable c (.finish d) .proceed
        (goto durable
          { c.stop with
            nextReceiveSeq := durable.lastAckedServerSeq + 1
            nextAckSeq := durable.lastAckedServerSeq + 1 } .idle)
  | expired (resume concurrency : Nat) :
      WorkCase opts durable c (.expiredRecovery resume concurrency) (.expiredRecovery true)
        (goto durable c (.adoptResume resume concurrency))
  | recovery (d : RelayDelivery) (state : RelayState) (saved : Processing)
      (decision : RecoveryDecision) :
      WorkCase opts durable c (.recovery d state saved) (.recovery decision)
        (recoveryDecision durable c d state saved decision)
  | handled (d : RelayDelivery) :
      WorkCase opts durable c (.running d) (.handler true) (goto durable c (.complete d))
  | throws (work : Work) (answer : Answer) : (∀ d, work ≠ .complete d) →
      WorkCase opts durable c work answer (throwing durable c)

theorem workStep_cases {answer : Answer} (hstep : workStep opts durable c answer = some e) :
    WorkCase opts durable c c.work answer e := by
  cases answer with
  | proceed =>
    cases hwork : c.work with
    | idle =>
      simp only [Relay.workStep, hwork] at hstep
      split at hstep
      · cases hstep
      · next hqueue =>
        cases hstep
        exact .idle _ _ hqueue
    | expiredRecovery | recovery | running => simp [Relay.workStep, hwork] at hstep
    | welcomed =>
      simp only [Relay.workStep, hwork] at hstep
      split at hstep
      · cases hstep
        exact .stopped _ _
      · cases hstep
        exact .welcomed _ _
    | barrier d =>
      simp only [Relay.workStep, hwork] at hstep
      split at hstep
      · split at hstep
        · next hempty =>
          cases hstep
          exact .barrier d (List.isEmpty_iff.1 hempty)
        · cases hstep
          exact .throws _ _ (by simp)
      · cases hstep
    | mark d state =>
      simp only [Relay.workStep, hwork] at hstep
      split at hstep
      · next hmarked =>
        cases hstep
        exact .mark d state _ hmarked
      · cases hstep
        exact .throws _ _ (by simp)
    | finish d =>
      simp only [Relay.workStep, hwork, Option.some.injEq] at hstep
      subst hstep
      split
      · exact .finishLast d
      · exact .finish d
    | adoptResume | readCheck | handle | clear | reread | call | complete | sendAck =>
      simp only [Relay.workStep, hwork, Option.some.injEq] at hstep
      subst hstep
      constructor
  | expiredRecovery ack =>
    cases hwork : c.work with
    | expiredRecovery =>
      simp only [Relay.workStep, hwork] at hstep
      split at hstep
      · next hack =>
        cases hstep
        subst hack
        exact .expired _ _
      · cases hstep
        exact .throws _ _ (by simp)
    | _ => simp [Relay.workStep, hwork] at hstep
  | recovery decision =>
    cases hwork : c.work with
    | recovery d state saved =>
      simp only [Relay.workStep, hwork, Option.some.injEq] at hstep
      subst hstep
      exact .recovery d state saved decision
    | _ => simp [Relay.workStep, hwork] at hstep
  | handler ok =>
    cases hwork : c.work with
    | running d =>
      simp only [Relay.workStep, hwork] at hstep
      split at hstep
      · next hok =>
        cases hstep
        subst hok
        exact .handled d
      · cases hstep
        exact .throws _ _ (by simp)
    | _ => simp [Relay.workStep, hwork] at hstep

theorem ConnInv.workStep (h : ConnInv c) {answer : Answer}
    (hstep : workStep opts durable c answer = some e) : ConnInv e.conn := by
  have hstage := h.stage
  have hthrow : ConnInv (throwing durable c).conn := h.rejectMessage
  have hcase := workStep_cases hstep
  generalize c.work = work at hcase hstage
  cases hcase with
  | idle frame queue =>
    have hidle : ConnInv { c with queue, work := .idle } :=
      { h with stage := trivial }
    exact hidle.processMessage frame
  | welcomed resume concurrency =>
    exact { h.restart (h.handshake hstage) (resume + 1) with
      handshake := by simp [Relay.goto] }
  | stopped => exact h.goto trivial
  | readCheck d =>
    rw [Relay.startRead]
    split
    · exact h.goto hstage
    · split
      · exact hthrow
      · next hnext =>
        push Not at hnext
        exact h.startRead hstage hnext.1
  | barrier d hempty => exact h.goto ⟨hempty, hstage⟩
  | handle d => exact h.handleDelivery hstage d
  | adoptResume | clear | reread | mark | call | complete | expired | handled =>
    exact h.goto hstage
  | sendAck d handled =>
    cases handled with
    | false => exact h.goto trivial
    | true => exact h.goto hstage
  | finish d => exact h.restart hstage.1 _
  | finishLast d =>
    refine h.stop.restart ?_ _
    rw [Connection.stop, Connection.drain]
    split
    · exact hstage.1
    · exact hstage.1
  | recovery d state saved decision =>
    cases decision with
    | stop => exact hthrow
    | retry => exact h.goto hstage
    | ack => exact h.goto hstage
  | throws => exact hthrow

theorem readSettles_cases {seq : Nat} {ok : Bool} (hstep : readSettles durable c seq ok = some e) :
    ∃ d ∈ c.runningReads, d.seq = seq ∧ e.durable = durable ∧ e.events = [] ∧ e.acks = []
      ∧ ((ok = true ∧ e.conn = { c with
            runningReads := c.runningReads.filter fun e => e.seq != d.seq
            completedReads := c.completedReads ++ [d] })
        ∨ (ok = false ∧ e.conn = { c.fail with
            runningReads := c.runningReads.filter fun e => e.seq != d.seq })) := by
  rw [readSettles] at hstep
  split at hstep
  · cases hstep
  · next d hfind =>
    have hmem := List.mem_of_find?_eq_some hfind
    have hseq : d.seq = seq := by simpa using List.find?_some hfind
    subst hseq
    refine ⟨d, hmem, rfl, ?_⟩
    split at hstep
    · next hok =>
      cases hstep
      exact ⟨rfl, rfl, rfl, .inl ⟨hok, rfl⟩⟩
    · next hok =>
      cases hstep
      exact ⟨rfl, rfl, rfl, .inr ⟨by simpa using hok, rfl⟩⟩

theorem ackRead_cases (hstep : ackRead durable c = some e) :
    ∃ d, c.readAckQueue = .idle ∧ c.nextCompleted? = some d
    ∧ e.durable = durable ∧ e.events = [] ∧ e.acks = []
    ∧ ((durable.processing = none ∧ durable.lastAckedServerSeq + 1 = d.seq
        ∧ e.conn = { c with readAckQueue := .writing d })
        ∨ e.conn = { c.fail with readAckQueue := .rejected }) := by
  rw [ackRead] at hstep
  split at hstep
  · next d hidle hnext =>
    refine ⟨d, hidle, hnext, ?_⟩
    split at hstep
    · cases hstep
      exact ⟨rfl, rfl, rfl, .inr rfl⟩
    · next hok =>
      cases hstep
      push Not at hok
      exact ⟨rfl, rfl, rfl, .inl ⟨by simpa using hok.1, hok.2, rfl⟩⟩
  · cases hstep

theorem nextCompleted?_spec {d : RelayDelivery} (h : c.nextCompleted? = some d) :
    d ∈ c.completedReads ∧ d.seq = c.nextAckSeq :=
  ⟨List.mem_of_find?_eq_some h, by simpa using List.find?_some h⟩

theorem ackWrite_cases (hstep : ackWrite c = some e) : ∃ d, c.readAckQueue = .writing d
      ∧ e = { conn := { c with readAckQueue := .sending d }
              durable := .ackedThrough d.seq } := by
  rw [ackWrite] at hstep
  split at hstep
  · next d hack => exact ⟨d, hack, by simpa using hstep.symm⟩
  · cases hstep

theorem ackSend_cases (hstep : ackSend durable c = some e) : ∃ d, c.readAckQueue = .sending d
      ∧ e = { conn := { c with
                readAckQueue := .idle
                completedReads :=
                  c.completedReads.filter fun e => e.seq != d.seq
                activeReads := c.activeReads.filter fun n => n != d.seq
                nextAckSeq := d.seq + 1 }
              durable
              acks := c.ackFrames d } := by
  rw [ackSend] at hstep
  split at hstep
  · next d hack => exact ⟨d, hack, by simpa using hstep.symm⟩
  · cases hstep

variable {act : ConnAct}

/-- One event of a connection, by the stage it meets. -/
theorem ConnInv.step (h : ConnInv c) (hstep : connStep opts durable c act = some e) :
    ConnInv e.conn := by
  cases act with
  | hello =>
    simp only [connStep] at hstep
    split at hstep
    · cases hstep
    · cases hstep
      exact { h with }
  | receive frame =>
    simp only [connStep] at hstep
    split at hstep
    · cases hstep
    · cases hstep
      exact { h with }
  | closeSocket =>
    simp only [connStep, Option.some.injEq] at hstep
    subst hstep
    exact { h with closed := fun _ => rfl }
  | disconnect =>
    simp only [connStep] at hstep
    split at hstep
    · cases hstep
    · cases hstep
      exact h.drain
  | stop =>
    simp only [connStep] at hstep
    split at hstep
    · cases hstep
    · cases hstep
      exact h.stop
  | settle =>
    simp only [connStep] at hstep
    split at hstep
    · cases hstep
      exact h.fail
    · cases hstep
  | work answer => exact h.workStep hstep
  | readSettles seq ok =>
    obtain ⟨d, hd, rfl, _, _, _, ⟨_, heq⟩ | ⟨_, heq⟩⟩ :=
      readSettles_cases hstep
    · rw [heq]
      exact h.completeRead hd
    · rw [heq]
      exact h.fail.dropRead d.seq
  | ackRead =>
    obtain ⟨d, _, hnext, _, _, _, ⟨_, _, heq⟩ | heq⟩ := ackRead_cases hstep
    · rw [heq]
      exact { h with
        writing := by
          rintro e ⟨⟩
          exact nextCompleted?_spec hnext
        sending := by simp }
    · rw [heq]
      exact { h.fail with
        writing := by simp
        sending := by simp }
  | ackWrite =>
    obtain ⟨d, hack, rfl⟩ := ackWrite_cases hstep
    exact { h with
      writing := by simp
      sending := by
        rintro e ⟨⟩
        exact h.writing d hack }
  | ackSend =>
    obtain ⟨d, hack, rfl⟩ := ackSend_cases hstep
    exact h.ackRead hack

-- === what a step lets out

theorem processMessage_silent (frame : ServerFrame) :
    (processMessage opts durable c frame).Silent durable := by
  cases frame with
  | welcome frame =>
    simp only [processMessage, validateWelcome.eq_def]
    repeat' split
    all_goals exact ⟨rfl, rfl, rfl⟩
  | delivery frame =>
    simp only [processMessage]
    repeat' split
    all_goals exact ⟨rfl, rfl, rfl⟩

theorem startRead_silent (d : RelayDelivery) : (startRead durable c d).Silent durable := by
  rw [startRead]
  repeat' split
  all_goals exact ⟨rfl, rfl, rfl⟩

theorem handleDelivery_silent (d : RelayDelivery) :
    (handleDelivery opts durable c d).Silent durable := by
  rw [handleDelivery.eq_def]
  repeat' split
  all_goals exact ⟨rfl, rfl, rfl⟩

/-- Which stages call a handler, ask recovery or send a frame. -/
inductive Outputs (c : Connection) (e : Effect) : Prop
  | none : e.events = [] → e.acks = [] → Outputs c e
  | invoked (d : RelayDelivery) : c.work = .call d →
      e.events = [.invoked d] → e.acks = [] → Outputs c e
  | recovered (d : RelayDelivery) (state : RelayState) (saved : Processing)
      (decision : RecoveryDecision) : c.work = .recovery d state saved →
      e.events = [.recovered saved decision] → e.acks = [] → Outputs c e
  | sent (d : RelayDelivery) :
      (∃ handled, c.work = .sendAck d handled) ∨ c.readAckQueue = .sending d →
      e.events = [] → e.acks = c.ackFrames d → Outputs c e

theorem workStep_outputs {answer : Answer}
    (hstep : workStep opts durable c answer = some e) : Outputs c e := by
  have hcase := workStep_cases hstep
  generalize hwork : c.work = work at hcase
  cases hcase with
  | idle frame queue =>
    have hsilent := @processMessage_silent opts durable { c with queue, work := .idle } frame
    exact .none hsilent.events hsilent.acks
  | readCheck d =>
    have hsilent := @startRead_silent durable c d
    exact .none hsilent.events hsilent.acks
  | handle d =>
    have hsilent := @handleDelivery_silent opts durable c d
    exact .none hsilent.events hsilent.acks
  | call d => exact .invoked d hwork rfl rfl
  | sendAck d handled => exact .sent d (.inl ⟨handled, hwork⟩) rfl rfl
  | recovery d state saved decision =>
    refine .recovered d state saved decision hwork rfl ?_
    cases decision with
    | stop => rfl
    | retry => rfl
    | ack => rfl
  | adoptResume | stopped | welcomed | barrier | clear | reread | mark | complete | finish
  | finishLast | expired | handled | throws => exact .none rfl rfl

theorem connStep_outputs (hstep : connStep opts durable c act = some e) : Outputs c e := by
  cases act with
  | work answer => exact workStep_outputs hstep
  | readSettles seq ok =>
    obtain ⟨_, _, _, _, hevents, hacks, _⟩ := readSettles_cases hstep
    exact .none hevents hacks
  | ackRead =>
    obtain ⟨_, _, _, _, hevents, hacks, _⟩ := ackRead_cases hstep
    exact .none hevents hacks
  | ackWrite =>
    obtain ⟨_, _, rfl⟩ := ackWrite_cases hstep
    exact .none rfl rfl
  | ackSend =>
    obtain ⟨d, hsending, rfl⟩ := ackSend_cases hstep
    exact .sent d (.inr hsending) rfl rfl
  | closeSocket =>
    cases hstep
    exact .none rfl rfl
  | hello | receive | disconnect | stop | settle =>
    simp only [connStep] at hstep
    split at hstep
    all_goals cases hstep
    all_goals exact .none rfl rfl

theorem ConnInv.no_acks (h : ConnInv c) (hstep : connStep opts durable c act = some e)
    (hquiet : c.settled = true ∨ c.welcomed = false) : e.acks = [] := by
  cases connStep_outputs hstep with
  | none _ hacks => exact hacks
  | invoked _ _ _ hacks => exact hacks
  | recovered _ _ _ _ _ _ hacks => exact hacks
  | sent d hstage _ hacks =>
    rcases hquiet with hsettled | hnew
    · rw [hacks, Connection.ackFrames, h.closed hsettled]
      rfl
    · exfalso
      rcases hstage with ⟨handled, hwork⟩ | hsending
      · have hfits := h.stage
        rw [hwork] at hfits
        cases handled with
        | false => exact absurd (hnew.symm.trans hfits) (by simp)
        | true => exact absurd (hnew.symm.trans hfits.2) (by simp)
      · have hmem := (h.sending d hsending).1
        have hactive := h.active d (List.mem_append_right _ hmem)
        rw [h.handshake hnew] at hactive
        cases hactive

end

end OperatorRuntime.Relay
