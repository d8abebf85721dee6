/-
At-most-once execution on the client. The record of a delivery in
`processing` is written before its handler is called and cleared only by
the write that moves the cursor past it or by an answer `retry`, so a
second call without that answer needs the durable state to be moved back
in between.

A connection that failed on a rejecting read handler is not drained: its
other reads go on, and an acknowledgement among them that read the cursor
before the replacement connection moved it can still write its stale
value. `NoEarlierRead` excludes exactly that: a read handler rejects
only once the reads accepted before it have written their cursor.
-/
import OperatorRuntime.Lib.Keyed
import OperatorRuntime.Lib.Runs
import OperatorRuntime.Relay.Proofs.ClientQuiet

namespace OperatorRuntime.Relay

open Lib

-- ===== the log

/-- `d` was handed to its handler and not released for a retry since. -/
def Open (log : List Event) (d : RelayDelivery) : Prop :=
  ∃ pre post : List Event, log = pre ++ Event.invoked d :: post
    ∧ .recovered { seq := d.seq, id := d.id } .retry ∉ post

/-- A call is repeated only after recovery was asked about exactly the
record of the last one and answered `retry`. -/
def AtMostOnce (log : List Event) : Prop :=
  ∀ (pre mid post : List Event) (d d' : RelayDelivery),
    log = pre ++ Event.invoked d :: mid ++ Event.invoked d' :: post → d'.seq = d.seq →
      (∀ x, Event.invoked x ∈ mid → x.seq ≠ d.seq) →
        .recovered { seq := d.seq, id := d.id } .retry ∈ mid

/-- The durable state accounts for every open call: it is behind the
cursor or it is the one being processed. -/
def Accounts (state : RelayState) (log : List Event) : Prop :=
  ∀ d, Open log d → d.seq ≤ state.lastAckedServerSeq
    ∨ state.processing = some { seq := d.seq, id := d.id }

/-- Every open call is behind the cursor. -/
def AllSettled (state : RelayState) (log : List Event) : Prop :=
  ∀ d, Open log d → d.seq ≤ state.lastAckedServerSeq

section
variable {log : List Event} {state : RelayState}

theorem AllSettled.accounts (h : AllSettled state log) : Accounts state log :=
  fun d hd => .inl (h d hd)

theorem Accounts.settled (h : Accounts state log)
    (hnone : state.processing = none) : AllSettled state log := by
  intro d hd
  rcases h d hd with hle | hsome
  · exact hle
  · rw [hnone] at hsome
    cases hsome

theorem Accounts.advance (h : Accounts state log) {seq : Nat} (hle : state.lastAckedServerSeq ≤ seq)
    (hprocessing : ∀ p ∈ state.processing, p.seq ≤ seq) : AllSettled (.ackedThrough seq) log := by
  intro d hd
  show d.seq ≤ seq
  rcases h d hd with hold | hsome
  · omega
  · exact hprocessing _ hsome

/-- An occurrence in a log with one more event is the last event or an
occurrence before it. -/
private theorem snoc_split {pre post : List Event} {x y : Event}
    (h : log ++ [x] = pre ++ y :: post) :
    (post = [] ∧ log = pre ∧ x = y) ∨ ∃ post', post = post' ++ [x] ∧ log = pre ++ y :: post' := by
  rcases List.eq_nil_or_concat post with rfl | ⟨post', z, rfl⟩
  · obtain ⟨hinit, hlast⟩ := List.append_inj' h rfl
    exact .inl ⟨rfl, hinit, by simpa using hlast⟩
  · rw [List.concat_eq_append, ← List.cons_append, ← List.append_assoc] at h
    obtain ⟨hinit, hlast⟩ := List.append_inj' h rfl
    obtain rfl : x = z := by simpa using hlast
    exact .inr ⟨post', List.concat_eq_append, hinit⟩

theorem open_append {x : Event} {d : RelayDelivery} (h : Open (log ++ [x]) d) :
    (Open log d ∧ x ≠ .recovered { seq := d.seq, id := d.id } .retry) ∨ x = .invoked d := by
  obtain ⟨pre, post, heq, hnot⟩ := h
  rcases snoc_split heq with ⟨_, _, hlast⟩ | ⟨post', rfl, hinit⟩
  · exact .inr hlast
  · rw [List.mem_append, not_or] at hnot
    refine .inl ⟨⟨pre, post', hinit, hnot.1⟩, ?_⟩
    rintro rfl
    simp at hnot

theorem open_recovered {saved : Processing} {decision : RecoveryDecision}
    {d : RelayDelivery} (h : Open (log ++ [Event.recovered saved decision]) d) :
    Open log d := by
  rcases open_append h with ⟨hopen, _⟩ | heq
  · exact hopen
  · cases heq

theorem Accounts.retry (h : Accounts state log) {saved : Processing}
    (hsaved : state.processing = some saved) :
    AllSettled state (log ++ [Event.recovered saved .retry]) := by
  intro d hd
  rcases open_append hd with ⟨hopen, hne⟩ | heq
  · rcases h d hopen with hle | hsome
    · exact hle
    · rw [hsaved, Option.some.injEq] at hsome
      subst hsome
      exact absurd rfl hne
  · cases heq

theorem AtMostOnce.recovered (h : AtMostOnce log) (saved : Processing)
    (decision : RecoveryDecision) : AtMostOnce (log ++ [Event.recovered saved decision]) := by
  intro pre mid post d d' heq hseq hmid
  rcases snoc_split heq with ⟨_, _, hlast⟩ | ⟨post', _, hinit⟩
  · cases hlast
  · exact h pre mid post' d d' hinit hseq hmid

theorem AtMostOnce.invoked (h : AtMostOnce log) {x : RelayDelivery}
    (hclosed : ∀ d, Open log d → d.seq ≠ x.seq) : AtMostOnce (log ++ [Event.invoked x]) := by
  intro pre mid post d d' heq hseq hmid
  rcases snoc_split heq with ⟨_, hinit, hlast⟩ | ⟨post', _, hinit⟩
  · cases hlast
    by_contra hnot
    exact hclosed d ⟨pre, mid, hinit, hnot⟩ hseq.symm
  · exact h pre mid post' d d' hinit hseq hmid

end

-- === the live connection

/-- What the durable state is at each stage of the live connection. -/
def Work.Agrees (durable hello : RelayState) : Work → Prop
  | .expiredRecovery resume _ | .adoptResume resume _ =>
    hello.lastAckedServerSeq ≤ resume ∧ ∀ p ∈ hello.processing, p.seq ≤ resume
  | .recovery d state saved =>
    state = durable ∧ durable.processing = some saved ∧ saved = { seq := d.seq, id := d.id }
  | .clear d state =>
    state = durable ∧ durable.lastAckedServerSeq + 1 = d.seq
  | .reread d => durable.processing = none ∧ durable.lastAckedServerSeq + 1 = d.seq
  | .mark d state =>
    state = durable ∧ durable.processing = none ∧ durable.lastAckedServerSeq + 1 = d.seq
  | .call d | .running d | .complete d =>
    durable.processing = some { seq := d.seq, id := d.id }
  | _ => True

/-- Stages between an answer that allows a call and the call. -/
def Work.fresh : Work → Bool
  | .clear .. | .reread .. | .mark .. | .call .. => true
  | _ => false

/-- The live connection knows the durable state it will write over. -/
structure StageInv (durable : RelayState) (c : Connection) (log : List Event) :
    Prop where
  work : c.work.Agrees durable c.state
  ack : ∀ d, c.readAckQueue = .writing d →
    durable.processing = none ∧ durable.lastAckedServerSeq + 1 = d.seq
  hello : c.welcomed = false → Accounts c.state log
  fresh : c.work.fresh = true → AllSettled durable log

/-- The read handler `seq` rejects after every earlier read of the
connection has written its cursor. -/
def Connection.NoEarlierRead (c : Connection) (seq : Nat) : Prop :=
  ∀ n ∈ c.activeReads, n < seq → ∃ d, c.readAckQueue = .sending d ∧ d.seq = n

/-- What a step of the live connection leaves. -/
structure LiveStep (log : List Event) (e : Effect) : Prop where
  live : e.conn.settled = false → StageInv e.durable e.conn (log ++ e.events)
  quiet : e.conn.settled = true → e.conn.Quiet
  accounts : Accounts e.durable (log ++ e.events)
  once : AtMostOnce (log ++ e.events)

section
variable {opts : ClientOptions} {durable state : RelayState} {c : Connection}
  {e : Effect} {log : List Event}

theorem LiveStep.silent (hstage : StageInv durable c log)
    (hlog : Accounts durable log) (honce : AtMostOnce log) {c' : Connection}
    (hsettled : c'.settled = false) (hwork : c'.work.Agrees durable c'.state)
    (hfresh : c'.work.fresh = true → AllSettled durable log)
    (hack : c'.readAckQueue = c.readAckQueue ∨ c'.readAckQueue = .idle)
    (hhello : c'.welcomed = false → c'.state = c.state ∧ c.welcomed = false) :
    LiveStep log { conn := c', durable } where
  live := by
    intro _
    simp only [List.append_nil]
    refine ⟨hwork, ?_, ?_, hfresh⟩
    · intro d hd
      rcases hack with hsame | hidle
      · exact hstage.ack d (hsame ▸ hd)
      · rw [hidle] at hd
        cases hd
    · intro hnew
      obtain ⟨hstate, hold⟩ := hhello hnew
      rw [hstate]
      exact hstage.hello hold
  quiet := by simp [hsettled]
  accounts := by simpa using hlog
  once := by simpa using honce

theorem rejectMessage_fields (c : Connection) :
    c.rejectMessage.work = .idle ∧ c.rejectMessage.state = c.state
    ∧ c.rejectMessage.welcomed = c.welcomed ∧ c.rejectMessage.readAckQueue = c.readAckQueue := by
  obtain ⟨draining, hdrain⟩ := c.drain_eq
  rw [Connection.rejectMessage, hdrain]
  exact ⟨rfl, rfl, rfl, rfl⟩

theorem LiveStep.throwing (hstage : StageInv durable c log)
    (hlog : Accounts durable log) (honce : AtMostOnce log)
    (hlive : c.settled = false) : LiveStep log (throwing durable c) := by
  obtain ⟨hwork, hstate, hwelcomed, hack⟩ := rejectMessage_fields c
  apply LiveStep.silent hstage hlog honce
  · simpa using hlive
  · rw [hwork]
    trivial
  · simp [hwork, Work.fresh]
  · exact .inl hack
  · intro hnew
    exact ⟨hstate, hwelcomed ▸ hnew⟩

theorem LiveStep.goto (hstage : StageInv durable c log)
    (hlog : Accounts durable log) (honce : AtMostOnce log) (hlive : c.settled = false) {work : Work}
    (hwork : work.Agrees durable c.state) (hfresh : work.fresh = true → AllSettled durable log) :
    LiveStep log (Relay.goto durable c work) :=
  LiveStep.silent hstage hlog honce hlive hwork hfresh (.inl rfl)
    fun hnew => ⟨rfl, hnew⟩

theorem LiveStep.write (hlog : AllSettled state log) (honce : AtMostOnce log)
    {c' : Connection} (hsettled : c'.settled = false)
    (hwork : c'.work.Agrees state c'.state)
    (hack : ∀ d, c'.readAckQueue ≠ .writing d)
    (hhello : c'.welcomed = false → Accounts c'.state log) :
    LiveStep log { conn := c', durable := state } where
  live := by
    intro _
    simp only [List.append_nil]
    exact ⟨hwork, fun d hd => absurd hd (hack d), hhello, fun _ => hlog⟩
  quiet := by simp [hsettled]
  accounts := by simpa using hlog.accounts
  once := by simpa using honce

theorem ConnInv.not_writing (h : ConnInv c) (hnil : c.activeReads = []) :
    ∀ d, c.readAckQueue ≠ .writing d := by
  intro d hd
  rcases (h.no_reads hnil).2.2 with hidle | hrejected
  · rw [hidle] at hd
    cases hd
  · rw [hrejected] at hd
    cases hd

theorem LiveStep.validateWelcome (hstage : StageInv durable c log)
    (hlog : Accounts durable log) (honce : AtMostOnce log)
    (hlive : c.settled = false) (frame : WelcomeFrame) :
    LiveStep log (validateWelcome opts durable c frame) := by
  have hthrow := LiveStep.throwing hstage hlog honce hlive
  have hgoto := @LiveStep.goto durable c log hstage hlog honce hlive
  rw [Relay.validateWelcome.eq_def]
  split
  · next resume concurrency _ _ =>
    split
    · exact hthrow
    · split
      · split
        · exact hthrow
        · exact hgoto trivial (by simp [Work.fresh])
      · split
        · exact hthrow
        · next hresume =>
          have hle : c.state.lastAckedServerSeq ≤ resume := by
            simp only [Bool.or_eq_true, decide_eq_true_eq, not_or] at hresume
            omega
          split
          · next hnone =>
            exact hgoto ⟨hle, by simp [hnone]⟩ (by simp [Work.fresh])
          · next p hsome =>
            split
            · exact hthrow
            · next hseq =>
              have hseq : p.seq ≤ resume := by
                simp only [Bool.or_eq_true, decide_eq_true_eq, not_or] at hseq
                omega
              refine hgoto ⟨hle, ?_⟩ (by simp [Work.fresh])
              rw [hsome]
              rintro q ⟨⟩
              exact hseq
  · exact hthrow

theorem LiveStep.processMessage (hstage : StageInv durable c log)
    (hlog : Accounts durable log) (honce : AtMostOnce log)
    (hlive : c.settled = false) (frame : ServerFrame) :
    LiveStep log (processMessage opts durable c frame) := by
  have hthrow := LiveStep.throwing hstage hlog honce hlive
  have hgoto := @LiveStep.goto durable c log hstage hlog honce hlive
  cases frame with
  | welcome frame =>
    rw [Relay.processMessage]
    split
    · exact hthrow
    · exact LiveStep.validateWelcome hstage hlog honce hlive frame
  | delivery frame =>
    rw [Relay.processMessage]
    split
    · exact hthrow
    · split
      · exact hthrow
      · split
        · exact hthrow
        · split
          · exact hgoto trivial (by simp [Work.fresh])
          · split
            · exact hgoto trivial (by simp [Work.fresh])
            · exact hgoto trivial (by simp [Work.fresh])

theorem LiveStep.startRead (hstage : StageInv durable c log)
    (hlog : Accounts durable log) (honce : AtMostOnce log)
    (hlive : c.settled = false) (d : RelayDelivery) : LiveStep log (startRead durable c d) := by
  rw [Relay.startRead]
  split
  · exact LiveStep.goto hstage hlog honce hlive trivial (by simp [Work.fresh])
  · split
    · exact LiveStep.throwing hstage hlog honce hlive
    · exact LiveStep.silent hstage hlog honce hlive trivial
        (by simp [Work.fresh]) (.inl rfl) fun hnew => ⟨rfl, hnew⟩

theorem LiveStep.handleDelivery (hstage : StageInv durable c log)
    (hlog : Accounts durable log) (honce : AtMostOnce log)
    (hlive : c.settled = false) (d : RelayDelivery) :
    LiveStep log (handleDelivery opts durable c d) := by
  have hthrow := LiveStep.throwing hstage hlog honce hlive
  have hgoto := @LiveStep.goto durable c log hstage hlog honce hlive
  rw [Relay.handleDelivery.eq_def]
  split
  · exact hgoto trivial (by simp [Work.fresh])
  · split
    · exact hthrow
    · next hnext =>
      rw [not_not] at hnext
      split
      · next hnone =>
        exact hgoto ⟨rfl, hnone, hnext.symm⟩ fun _ => hlog.settled hnone
      · next p hsome =>
        split
        · exact hthrow
        · next hsame =>
          push Not at hsame
          refine hgoto ⟨rfl, hsome, ?_⟩ (by simp [Work.fresh])
          cases p
          simp_all

variable {d : RelayDelivery}

theorem LiveStep.recoveryDecision (hinv : ConnInv c) (hstage : StageInv durable c log)
    (hlog : Accounts durable log) (honce : AtMostOnce log) (hlive : c.settled = false)
    {state : RelayState} {saved : Processing} (hwork : c.work = .recovery d state saved)
    (decision : RecoveryDecision) :
    LiveStep log (recoveryDecision durable c d state saved decision) := by
  have hagrees := hstage.work
  rw [hwork] at hagrees
  obtain ⟨rfl, hsaved, hid⟩ := hagrees
  have hfits := hinv.stage
  rw [hwork] at hfits
  have hwriting := hinv.not_writing hfits.1
  -- The answer only adds its own event to the log.
  have hlog' : ∀ decision, Accounts state (log ++ [Event.recovered saved decision]) :=
    fun decision x hx => hlog x (open_recovered hx)
  have hhello : ∀ decision, c.welcomed = false →
      Accounts c.state (log ++ [Event.recovered saved decision]) :=
    fun decision hnew x hx => hstage.hello hnew x (open_recovered hx)
  obtain ⟨hridle, hrstate, hrwelcomed, hrack⟩ := rejectMessage_fields c
  cases decision with
  | stop =>
    refine ⟨?_, ?_, hlog' _, honce.recovered _ _⟩
    · intro _
      refine ⟨?_, ?_, ?_, ?_⟩
      · show c.rejectMessage.work.Agrees state c.rejectMessage.state
        rw [hridle]
        trivial
      · intro x hx
        exact absurd (hrack ▸ hx) (hwriting x)
      · intro hnew
        show Accounts c.rejectMessage.state _
        rw [hrstate]
        exact hhello _ (hrwelcomed ▸ hnew)
      · intro hfresh
        have : c.rejectMessage.work.fresh = true := hfresh
        rw [hridle] at this
        cases this
    · intro hset
      have : c.rejectMessage.settled = true := hset
      rw [rejectMessage_settled, hlive] at this
      cases this
  | retry =>
    refine ⟨?_, ?_, hlog' _, honce.recovered _ _⟩
    · intro _
      refine ⟨⟨rfl, ?_⟩, fun x hx => absurd hx (hwriting x), hhello _, fun _ => hlog.retry hsaved⟩
      have := state.contiguous saved hsaved
      rw [hid] at this
      exact this.symm
    · intro hset
      have : c.settled = true := hset
      rw [hlive] at this
      cases this
  | ack =>
    refine ⟨?_, ?_, hlog' _, honce.recovered _ _⟩
    · intro _
      refine ⟨?_, fun x hx => absurd hx (hwriting x), hhello _, ?_⟩
      · exact hid ▸ hsaved
      · intro hfresh
        cases hfresh
    · intro hset
      have : c.settled = true := hset
      rw [hlive] at this
      cases this

theorem LiveStep.call (hinv : ConnInv c) (hstage : StageInv durable c log)
    (honce : AtMostOnce log) (hlive : c.settled = false) (hwork : c.work = .call d) : LiveStep log
      { Relay.goto durable c (.running d) with events := [.invoked d] } := by
  have hfits := hinv.stage
  have hagrees := hstage.work
  have hsettled := hstage.fresh (by rw [hwork]; rfl)
  rw [hwork] at hfits hagrees
  have hseq : d.seq = durable.lastAckedServerSeq + 1 :=
    durable.contiguous _ hagrees
  refine ⟨?_, ?_, ?_, ?_⟩
  · intro _
    refine ⟨hagrees, fun x hx => absurd hx (hinv.not_writing hfits.1 x), ?_, ?_⟩
    · intro hnew
      have hnew : c.welcomed = false := hnew
      rw [hfits.2] at hnew
      cases hnew
    · intro hfresh
      cases hfresh
  · intro hset
    have hset : c.settled = true := hset
    rw [hlive] at hset
    cases hset
  · intro x hx
    rcases open_append hx with ⟨hopen, _⟩ | heq
    · exact .inl (hsettled x hopen)
    · cases heq
      exact .inr hagrees
  · refine honce.invoked fun x hx => ?_
    have hle := hsettled x hx
    omega

theorem LiveStep.workStep (hinv : ConnInv c) (hstage : StageInv durable c log)
    (hlog : Accounts durable log) (honce : AtMostOnce log)
    (hlive : c.settled = false) {answer : Answer}
    (hstep : workStep opts durable c answer = some e) : LiveStep log e := by
  have hgoto := @LiveStep.goto durable c log hstage hlog honce hlive
  have hfits := hinv.stage
  have hagrees := hstage.work
  have hfresh := hstage.fresh
  have hcase := workStep_cases hstep
  generalize hwork : c.work = work at hcase hfits hagrees hfresh
  cases hcase with
  | idle frame queue =>
    have hidle : StageInv durable { c with queue, work := .idle } log :=
      { hstage with
        work := trivial
        fresh := fun hfresh => by cases hfresh }
    exact LiveStep.processMessage hidle hlog honce hlive frame
  | adoptResume resume concurrency =>
    have hhello := hstage.hello hfits
    exact LiveStep.write (hhello.advance hagrees.1 hagrees.2) honce hlive
      trivial (hinv.not_writing (hinv.handshake hfits)) fun _ => hhello
  | stopped => exact hgoto trivial fun hfresh => by cases hfresh
  | welcomed =>
    exact LiveStep.silent hstage hlog honce hlive trivial
      (fun hfresh => by cases hfresh) (.inl rfl) fun hnew => by cases hnew
  | readCheck d => exact LiveStep.startRead hstage hlog honce hlive d
  | barrier => exact hgoto trivial fun hfresh => by cases hfresh
  | handle d => exact LiveStep.handleDelivery hstage hlog honce hlive d
  | clear d state =>
    obtain ⟨rfl, hseq⟩ := hagrees
    refine LiveStep.write ?_ honce hlive ⟨rfl, hseq⟩ (hinv.not_writing hfits.1) ?_
    · exact fun x hx => hfresh rfl x hx
    · exact fun hnew => absurd (hfits.2.symm.trans hnew) (by simp)
  | reread => exact hgoto ⟨rfl, hagrees.1, hagrees.2⟩ fun _ => hfresh rfl
  | mark d state marked hmarked =>
    obtain ⟨rfl, hnone, hseq⟩ := hagrees
    have hnext : ({ seq := d.seq, id := d.id } : Processing).seq
        = state.lastAckedServerSeq + 1 := hseq.symm
    rw [RelayState.withProcessing, dif_pos hnext] at hmarked
    cases hmarked
    refine LiveStep.write ?_ honce hlive rfl (hinv.not_writing hfits.1) ?_
    · exact fun x hx => hfresh rfl x hx
    · exact fun hnew => absurd (hfits.2.symm.trans hnew) (by simp)
  | call => exact LiveStep.call hinv hstage honce hlive hwork
  | complete d =>
    have hseq := durable.contiguous _ hagrees
    have hsettled : AllSettled (.ackedThrough d.seq) log := by
      refine hlog.advance (by simp only at hseq; omega) ?_
      rw [hagrees]
      rintro p ⟨⟩
      exact Nat.le_refl _
    exact LiveStep.write hsettled honce hlive trivial (hinv.not_writing hfits.1)
      fun hnew => absurd (hfits.2.symm.trans hnew) (by simp)
  | sendAck d handled =>
    have hsame : LiveStep log (Relay.goto durable c
        (if handled then .finish d else .idle)) := by
      cases handled with
      | false => exact hgoto trivial fun hfresh => by cases hfresh
      | true => exact hgoto trivial fun hfresh => by cases hfresh
    exact ⟨hsame.live, hsame.quiet, hsame.accounts, hsame.once⟩
  | finish =>
    exact LiveStep.silent hstage hlog honce hlive trivial
      (fun hfresh => by cases hfresh) (.inl rfl) fun hnew => ⟨rfl, hnew⟩
  | finishLast =>
    obtain ⟨draining, hdrain⟩ := c.drain_eq
    rw [Connection.stop, hdrain]
    exact LiveStep.silent hstage hlog honce hlive trivial
      (fun hfresh => by cases hfresh) (.inl rfl) fun hnew => ⟨rfl, hnew⟩
  | expired | handled => exact hgoto hagrees fun hfresh => by cases hfresh
  | recovery => exact LiveStep.recoveryDecision hinv hstage hlog honce hlive hwork _
  | throws => exact LiveStep.throwing hstage hlog honce hlive

theorem ConnInv.idle_of_active (h : ConnInv c) (hne : c.activeReads ≠ [])
    (state hello : RelayState) :
    c.work.Agrees state hello ∧ c.work.fresh = false ∧ c.welcomed = true := by
  have hwelcomed : c.welcomed = true := by
    by_contra hnot
    exact hne (h.handshake (by simpa using hnot))
  have hfits := h.stage
  cases hwork : c.work with
  | idle => exact ⟨trivial, rfl, hwelcomed⟩
  | readCheck d => exact ⟨trivial, rfl, hwelcomed⟩
  | barrier d => exact ⟨trivial, rfl, hwelcomed⟩
  | sendAck d handled => exact ⟨trivial, rfl, hwelcomed⟩
  | expiredRecovery | adoptResume | welcomed =>
    rw [hwork] at hfits
    exact absurd (hwelcomed.symm.trans hfits) (by simp)
  | _ =>
    rw [hwork] at hfits
    exact absurd hfits.1 hne

theorem ConnInv.stuck_of_reject (h : ConnInv c) (hd : d ∈ c.runningReads)
    (hearlier : c.NoEarlierRead d.seq) : Connection.Stuck { c.fail with
      runningReads := c.runningReads.filter fun e => e.seq != d.seq } := by
  have hactive := h.active d (List.mem_append_left _ hd)
  obtain ⟨hlow, hhigh⟩ := h.mem_active.1 hactive
  have hdistinct := h.distinct
  rw [List.map_append, List.nodup_append] at hdistinct
  have hnotdone : ∀ x ∈ c.completedReads, x.seq ≠ d.seq := fun x hx heq =>
    hdistinct.2.2 _ (List.mem_map_of_mem hd) _ (List.mem_map_of_mem hx) heq.symm
  by_cases hrejected : c.readAckQueue = .rejected
  · exact ⟨d.seq, hactive, .inl hrejected⟩
  refine ⟨d.seq, hactive, .inr ⟨?_, ?_⟩⟩
  · intro hin
    obtain ⟨x, hx, hxd⟩ := List.mem_map.1 hin
    rcases List.mem_append.1 hx with hrunning | hcompleted
    · have := (List.mem_filter.1 hrunning).2
      simp [hxd] at this
    · exact hnotdone x hcompleted hxd
  · show (c.readAckQueue = .idle ∧ c.nextAckSeq = d.seq)
      ∨ ∃ x, c.readAckQueue = .sending x ∧ x.seq + 1 = d.seq
    by_cases hfirst : c.nextAckSeq = d.seq
    · cases hack : c.readAckQueue with
      | idle => exact .inl ⟨rfl, hfirst⟩
      | writing x =>
        obtain ⟨hx, hxseq⟩ := h.writing x hack
        exact absurd (hxseq.trans hfirst) (hnotdone x hx)
      | sending x =>
        obtain ⟨hx, hxseq⟩ := h.sending x hack
        exact absurd (hxseq.trans hfirst) (hnotdone x hx)
      | rejected => exact absurd hack hrejected
    -- Otherwise the first active read is earlier, so it is being sent, and
    -- no second one lies in between.
    · obtain ⟨x, hsending, hxseq⟩ := hearlier c.nextAckSeq
        (h.mem_active.2 ⟨Nat.le_refl _, by omega⟩) (by omega)
      refine .inr ⟨x, hsending, ?_⟩
      by_contra hne
      obtain ⟨y, hy, hyseq⟩ := hearlier (c.nextAckSeq + 1)
        (h.mem_active.2 ⟨by omega, by omega⟩) (by omega)
      rw [hsending] at hy
      cases hy
      omega

/-- One event of a live connection. Only the rejection of a read needs its
condition: it settles the connection while earlier reads run on. -/
theorem LiveStep.step (hinv : ConnInv c) (hstage : StageInv durable c log)
    (hlog : Accounts durable log) (honce : AtMostOnce log)
    (hlive : c.settled = false) {act : ConnAct}
    (hreject : ∀ seq, act = .readSettles seq false → c.NoEarlierRead seq)
    (hstep : connStep opts durable c act = some e) : LiveStep log e := by
  have hsilent := @LiveStep.silent durable c log hstage hlog honce
  obtain ⟨draining, hdrain⟩ := c.drain_eq
  cases act with
  | hello =>
    simp only [connStep] at hstep
    split at hstep
    · cases hstep
    · cases hstep
      exact hsilent hlive hstage.work hstage.fresh (.inl rfl)
        fun hnew => ⟨rfl, hnew⟩
  | receive frame =>
    simp only [connStep] at hstep
    split at hstep
    · cases hstep
    · cases hstep
      exact hsilent hlive hstage.work hstage.fresh (.inl rfl)
        fun hnew => ⟨rfl, hnew⟩
  | closeSocket =>
    simp only [connStep, Option.some.injEq] at hstep
    subst hstep
    exact hsilent hlive hstage.work hstage.fresh (.inl rfl)
      fun hnew => ⟨rfl, hnew⟩
  | disconnect =>
    simp only [connStep] at hstep
    split at hstep
    · cases hstep
    · cases hstep
      rw [hdrain]
      exact hsilent hlive hstage.work hstage.fresh (.inl rfl)
        fun hnew => ⟨rfl, hnew⟩
  | stop =>
    simp only [connStep] at hstep
    split at hstep
    · cases hstep
    · cases hstep
      rw [Connection.stop, hdrain]
      exact hsilent hlive hstage.work hstage.fresh (.inl rfl)
        fun hnew => ⟨rfl, hnew⟩
  | settle =>
    simp only [connStep] at hstep
    split at hstep
    · next hdone =>
      cases hstep
      simp only [Bool.and_eq_true, List.isEmpty_iff, beq_iff_eq] at hdone
      refine ⟨(fun hopen => by cases hopen), fun _ => .inl ?_,
        by simpa using hlog, by simpa using honce⟩
      exact ⟨hdone.1.1.2, hdone.1.2, hdone.2⟩
    · cases hstep
  | work answer => exact LiveStep.workStep hinv hstage hlog honce hlive hstep
  | readSettles seq ok =>
    obtain ⟨d, hd, rfl, hdurable, hevents, hacks, hconn⟩ :=
      readSettles_cases hstep
    obtain ⟨conn, durable', events, acks⟩ := e
    simp only at hdurable hevents hacks hconn
    subst hdurable hevents hacks
    rcases hconn with ⟨_, rfl⟩ | ⟨rfl, rfl⟩
    · exact hsilent hlive hstage.work hstage.fresh (.inl rfl)
        fun hnew => ⟨rfl, hnew⟩
    · refine ⟨(fun hopen => by cases hopen), fun _ => .inr ?_,
        by simpa using hlog, by simpa using honce⟩
      exact hinv.stuck_of_reject hd (hreject d.seq rfl)
  | ackRead =>
    obtain ⟨d, _, hnext, hdurable, hevents, hacks, hconn⟩ :=
      ackRead_cases hstep
    obtain ⟨conn, durable', events, acks⟩ := e
    simp only at hdurable hevents hacks hconn
    subst hdurable hevents hacks
    rcases hconn with ⟨hnone, hseq, rfl⟩ | rfl
    · refine ⟨fun _ => ?_, fun hset => ?_, by simpa using hlog,
        by simpa using honce⟩
      · simp only [List.append_nil]
        refine ⟨hstage.work, ?_, hstage.hello, hstage.fresh⟩
        rintro x ⟨⟩
        exact ⟨hnone, hseq⟩
      · exact absurd (hlive.symm.trans hset) (by simp)
    · refine ⟨(fun hopen => by cases hopen), fun _ => .inr ?_,
        by simpa using hlog, by simpa using honce⟩
      have hmem := (nextCompleted?_spec hnext).1
      exact ⟨d.seq, hinv.active d (List.mem_append_right _ hmem), .inl rfl⟩
  | ackWrite =>
    obtain ⟨d, hwriting, rfl⟩ := ackWrite_cases hstep
    obtain ⟨hnone, hseq⟩ := hstage.ack d hwriting
    have hmem := (hinv.writing d hwriting).1
    have hactive := hinv.active d (List.mem_append_right _ hmem)
    obtain ⟨hagrees, _, hwelcomed⟩ := hinv.idle_of_active
      (List.ne_nil_of_mem hactive) (.ackedThrough d.seq) c.state
    refine LiveStep.write ?_ honce hlive hagrees (by simp) ?_
    · exact hlog.advance (by omega) (by simp [hnone])
    · exact fun hnew => absurd (hwelcomed.symm.trans hnew) (by simp)
  | ackSend =>
    obtain ⟨d, _, rfl⟩ := ackSend_cases hstep
    have hsame := @hsilent
      { c with
        readAckQueue := .idle
        completedReads := c.completedReads.filter fun e => e.seq != d.seq
        activeReads := c.activeReads.filter fun n => n != d.seq
        nextAckSeq := d.seq + 1 }
      hlive hstage.work hstage.fresh (.inr rfl) fun hnew => ⟨rfl, hnew⟩
    exact ⟨hsame.live, hsame.quiet, hsame.accounts, hsame.once⟩

theorem connStep_invoked {act : ConnAct} (hstep : connStep opts durable c act = some e)
    (hinvoked : .invoked d ∈ e.events) : c.work = .call d := by
  cases connStep_outputs hstep with
  | none hevents _ =>
    rw [hevents] at hinvoked
    cases hinvoked
  | invoked x hwork hevents _ =>
    obtain rfl : d = x := by simpa [hevents] using hinvoked
    exact hwork
  | recovered _ _ _ _ _ hevents _ => simp [hevents] at hinvoked
  | sent _ _ hevents _ =>
    rw [hevents] at hinvoked
    cases hinvoked

end

-- ===== the client

/-- The client invariant. -/
structure ClientInv (s : Client) : Prop where
  older : ∀ j c, j ≠ 0 → s.conns[j]? = some c → c.settled = true
  conns : ∀ c ∈ s.conns, ConnInv c
  quiet : ∀ c ∈ s.conns, c.settled = true → c.Quiet
  live : ∀ c ∈ s.conns, c.settled = false → StageInv s.durable c s.log
  log : Accounts s.durable s.log
  once : AtMostOnce s.log

/-- Every read handler that rejects on a live connection does so after
the reads accepted before it on that connection wrote their cursor. -/
def NoEarlierRead (s : Client) : ClientAct → Prop
  | .conn i (.readSettles seq false) =>
    ∀ c, s.conns[i]? = some c → c.settled = false → c.NoEarlierRead seq
  | _ => True

/-- Not the rejection of a read handler. -/
def ClientAct.resolves : ClientAct → Bool
  | .conn _ (.readSettles _ ok) => ok
  | _ => true

section
variable {opts : ClientOptions} {s t : Client} {act : ClientAct}

theorem noEarlierRead_of_resolves (h : act.resolves = true) : NoEarlierRead s act := by
  cases act with
  | connect => trivial
  | crash => trivial
  | conn i act =>
    cases act with
    | readSettles seq ok =>
      obtain rfl : ok = true := h
      trivial
    | _ => trivial

theorem ClientInv.initial : ClientInv Client.initial where
  older := by simp [Client.initial]
  conns := by simp [Client.initial]
  quiet := by simp [Client.initial]
  live := by simp [Client.initial]
  log := by
    rintro d ⟨pre, post, heq, _⟩
    simp [Client.initial] at heq
  once := by
    intro pre mid post d d' heq
    simp [Client.initial] at heq

theorem clientStep_conn {i : Nat} {act : ConnAct}
    (hstep : clientStep opts s (.conn i act) = some t) :
    ∃ c e, s.conns[i]? = some c ∧ connStep opts s.durable c act = some e
    ∧ t.durable = e.durable ∧ t.conns = s.conns.set i e.conn
    ∧ t.log = s.log ++ e.events ∧ t.acks = s.acks ++ e.acks
    ∧ t.hellos = s.hellos ++ act.hellos c ∧ t.connects = s.connects := by
  simp only [clientStep, bind, Option.bind_eq_some_iff] at hstep
  obtain ⟨c, hc, e, he, ht⟩ := hstep
  cases ht
  exact ⟨c, e, hc, he, rfl, rfl, rfl, rfl, rfl, rfl⟩

theorem ClientInv.step_conn (h : ClientInv s) {i : Nat} {act : ConnAct}
    (hcond : NoEarlierRead s (.conn i act))
    (hstep : clientStep opts s (.conn i act) = some t) : ClientInv t := by
  obtain ⟨c, e, hc, he, hdurable, hconns, hlog, _⟩ := clientStep_conn hstep
  have hmem := List.mem_of_getElem? hc
  have hinv := h.conns c hmem
  have hinv' := hinv.step he
  cases hlive : c.settled with
  | true =>
    -- A settled connection changes nothing but itself.
    obtain ⟨hsilent, hsettled', hquiet'⟩ :=
      (h.quiet c hmem hlive).step hinv hlive he
    have hdurable' : t.durable = s.durable := hdurable.trans hsilent.durable
    have hlog' : t.log = s.log := by rw [hlog, hsilent.events, List.append_nil]
    refine ⟨?_, ?_, ?_, ?_, by rw [hdurable', hlog']; exact h.log,
      by rw [hlog']; exact h.once⟩
    · rw [hconns]
      intro j x hj hx
      rcases getElem?_set_cases hx with ⟨_, rfl⟩ | ⟨_, hold⟩
      · exact hsettled'
      · exact h.older j x hj hold
    · rw [hconns]
      intro x hx
      rcases List.mem_or_eq_of_mem_set hx with hold | rfl
      · exact h.conns x hold
      · exact hinv'
    · rw [hconns]
      intro x hx hset
      rcases List.mem_or_eq_of_mem_set hx with hold | rfl
      · exact h.quiet x hold hset
      · exact hquiet'
    · rw [hconns, hdurable', hlog']
      intro x hx hset
      rcases List.mem_or_eq_of_mem_set hx with hold | rfl
      · exact h.live x hold hset
      · rw [hsettled'] at hset
        cases hset
  | false =>
    -- The live connection is the newest one; all others are settled.
    obtain rfl : i = 0 := by
      by_contra hne
      rw [h.older i c hne hc] at hlive
      cases hlive
    have hlivestep := LiveStep.step hinv (h.live c hmem hlive) h.log h.once
      hlive (fun seq hact => by subst hact; exact hcond c hc hlive) he
    refine ⟨?_, ?_, ?_, ?_, by rw [hdurable, hlog]; exact hlivestep.accounts,
      by rw [hlog]; exact hlivestep.once⟩
    · rw [hconns]
      intro j x hj hx
      rcases getElem?_set_cases hx with ⟨hzero, _⟩ | ⟨_, hold⟩
      · exact absurd hzero hj
      · exact h.older j x hj hold
    · rw [hconns]
      intro x hx
      rcases List.mem_or_eq_of_mem_set hx with hold | rfl
      · exact h.conns x hold
      · exact hinv'
    · rw [hconns]
      intro x hx hset
      rcases List.mem_or_eq_of_mem_set hx with hold | rfl
      · exact h.quiet x hold hset
      · exact hlivestep.quiet hset
    · rw [hconns, hdurable, hlog]
      intro x hx hset
      obtain ⟨j, hj⟩ := List.mem_iff_getElem?.1 hx
      rcases getElem?_set_cases hj with ⟨_, rfl⟩ | ⟨hne, hold⟩
      · exact hlivestep.live hset
      · rw [h.older j x hne hold] at hset
        cases hset

/-- One event of the client, at one of its connections. -/
theorem ClientInv.step (h : ClientInv s) (hcond : NoEarlierRead s act)
    (hstep : clientStep opts s act = some t) : ClientInv t := by
  cases act with
  | connect =>
    simp only [clientStep] at hstep
    split at hstep
    · next hall =>
      cases hstep
      simp only [Bool.and_eq_true, List.all_eq_true] at hall
      refine ⟨?_, ?_, ?_, ?_, h.log, h.once⟩
      · intro j c hj hc
        obtain ⟨k, rfl⟩ := Nat.exists_eq_succ_of_ne_zero hj
        exact hall.1 c (List.mem_of_getElem? hc)
      · intro c hc
        rcases List.mem_cons.1 hc with rfl | hold
        · exact ConnInv.new _ _
        · exact h.conns c hold
      · intro c hc hset
        rcases List.mem_cons.1 hc with rfl | hold
        · cases hset
        · exact h.quiet c hold hset
      · intro c hc hset
        rcases List.mem_cons.1 hc with rfl | hold
        · exact ⟨trivial, by simp [Connection.new], fun _ => h.log,
            fun hfresh => nomatch hfresh⟩
        · rw [hall.1 c hold] at hset
          cases hset
    · cases hstep
  | crash =>
    cases hstep
    exact ⟨by simp, by simp, by simp, by simp, h.log, h.once⟩
  | conn i act => exact h.step_conn hcond hstep

/-- A handler is called by a live connection, and its record is written then. -/
theorem ClientInv.invoked (h : ClientInv s) {d : RelayDelivery} (hstep : clientStep opts s act = some t)
    (hlog : t.log = s.log ++ [Event.invoked d]) :
    s.durable.processing = some { seq := d.seq, id := d.id } := by
  cases act with
  | connect =>
    simp only [clientStep] at hstep
    split at hstep
    · cases hstep
      simp at hlog
    · cases hstep
  | crash =>
    cases hstep
    simp at hlog
  | conn i act =>
    obtain ⟨c, e, hc, he, _, _, hlog', _⟩ := clientStep_conn hstep
    have hevents : e.events = [.invoked d] := List.append_cancel_left (hlog'.symm.trans hlog)
    have hmem := List.mem_of_getElem? hc
    have hwork : c.work = .call d := connStep_invoked he (by simp [hevents])
    cases hlive : c.settled with
    | true =>
      have hquiet := (h.quiet c hmem hlive).step (h.conns c hmem) hlive he
      rw [hquiet.1.events] at hevents
      cases hevents
    | false =>
      have hagrees := (h.live c hmem hlive).work
      rw [hwork] at hagrees
      exact hagrees

/-- A handler is called only while the record in `processing`, if any, is
not of an earlier delivery. -/
def CallsInOrder (opts : ClientOptions) (s : Client) : Prop :=
  ∀ act t (d : RelayDelivery), clientStep opts s act = some t →
    t.log = s.log ++ ([.invoked d] : List Event) → ∀ p ∈ s.durable.processing, d.seq ≤ p.seq

theorem ClientInv.callsInOrder (h : ClientInv s) : CallsInOrder opts s := by
  intro act t d hstep hlog p hp
  rw [Option.mem_def, h.invoked hstep hlog] at hp
  rw [← Option.some.inj hp]

end

-- ===== the main result

/-- In every run, with any frames, callbacks, reconnects and crashes, in
which a read handler rejects only after the reads accepted before it on
its connection wrote their cursor: `#handleDelivery` repeats a call only
after recovery answered `retry` for its exact record, and never calls a
handler past a record of an earlier delivery. -/
theorem handleDelivery_at_most_once (opts : ClientOptions) (acts : List ClientAct) (s : Client)
    (hrun : Run (Where (stepsOf (clientStep opts)) NoEarlierRead) Client.initial acts s) :
    AtMostOnce s.log ∧ CallsInOrder opts s := by
  have hinv : ClientInv s := hrun.invariant ClientInv.initial
    fun h hstep => h.step hstep.2 hstep.1
  exact ⟨hinv.once, hinv.callsInOrder⟩

-- ------------------------------------------- a later read is acknowledged

/-- A client with recovery callbacks and four concurrent reads. -/
def readingOptions : ClientOptions :=
  { onRecovery := true, onExpiredRecovery := true
    maxConcurrentReadDeliveries := 4 }

def connectAt (resume : Nat) : List ClientAct :=
  [.connect, .conn 0 .hello, .conn 0 (.receive (.welcome
     { resumeFromSeq := .int resume, readConcurrency := some (.int 4) })),
   .conn 0 (.work .proceed), .conn 0 (.work .proceed)]

def acceptRead (seq : Nat) : List ClientAct :=
  [.conn 0 (.receive (.delivery { seq := .int seq, id := "read", concurrentRead := true })),
   .conn 0 (.work .proceed), .conn 0 (.work .proceed)]

/-- Its handler resolves and its cursor is written. -/
def finishRead (seq : Nat) : List ClientAct :=
  [.conn 0 (.readSettles seq true), .conn 0 .ackRead, .conn 0 .ackWrite, .conn 0 .ackSend]

/-- The newest connection executes a non-read delivery to the end. -/
def executeAction (seq : Nat) : List ClientAct :=
  [.conn 0 (.receive (.delivery { seq := .int seq, id := "action", concurrentRead := false })),
   .conn 0 (.work .proceed), .conn 0 (.work .proceed),
   .conn 0 (.work .proceed), .conn 0 (.work .proceed),
   .conn 0 (.work (.handler true)), .conn 0 (.work .proceed),
   .conn 0 (.work .proceed), .conn 0 (.work .proceed)]

/-- Read 2 rejects while read 1 is running, so the connection fails
undrained. Read 1 then resolves and reads the cursor 0. The replacement
connection takes reads 1 and 2 and executes action 3; after that the old
acknowledgement writes cursor 1, and the next connection executes
action 3 again. -/
def staleAckTrace : List ClientAct :=
  connectAt 0 ++ acceptRead 1 ++ acceptRead 2
    ++ ([.conn 0 (.readSettles 2 false), .conn 0 (.readSettles 1 true),
      .conn 0 .ackRead] : List ClientAct)
    ++ connectAt 0 ++ acceptRead 1 ++ finishRead 1 ++ acceptRead 2
    ++ finishRead 2 ++ executeAction 3
    ++ ([.conn 1 .ackWrite, .conn 0 .disconnect, .conn 0 .settle] : List ClientAct)
    ++ connectAt 1 ++ acceptRead 2 ++ finishRead 2 ++ executeAction 3

/-- Action 3 runs twice and recovery is never asked. -/
theorem staleAck_executes_twice : ∃ s, Run (stepsOf (clientStep readingOptions)) Client.initial
        staleAckTrace s ∧ ¬ AtMostOnce s.log := by
  have hlog : (exec (clientStep readingOptions) Client.initial staleAckTrace).map (·.log)
      = some [.invoked ⟨3, "action", false⟩, .invoked ⟨3, "action", false⟩] := by
    decide
  obtain ⟨s, hexec, hs⟩ := Option.map_eq_some_iff.1 hlog
  refine ⟨s, run_of_exec hexec, ?_⟩
  intro honce
  have hretry := honce [] [] [] _ _ hs rfl (by simp)
  cases hretry

/-- A run that meets the condition: action 1 is interrupted by a crash
after its call, recovery answers `retry`, and it is called again. -/
def retryTrace : List ClientAct :=
  connectAt 0 ++ (executeAction 1).take 5 ++ [ClientAct.crash] ++ connectAt 0
    ++ ([.conn 0 (.receive (.delivery { seq := .int 1, id := "action", concurrentRead := false })),
        .conn 0 (.work .proceed), .conn 0 (.work .proceed),
        .conn 0 (.work (.recovery .retry)), .conn 0 (.work .proceed),
        .conn 0 (.work .proceed), .conn 0 (.work .proceed),
        .conn 0 (.work .proceed)] : List ClientAct)

/-- A crash inside the handler, and a recovery that retries. -/
theorem handleDelivery_at_most_once_retryTrace :
    ∃ s, Run (Where (stepsOf (clientStep readingOptions)) NoEarlierRead) Client.initial retryTrace s
    ∧ s.log = [.invoked ⟨1, "action", false⟩,
        .recovered ⟨1, "action"⟩ .retry, .invoked ⟨1, "action", false⟩]
    ∧ AtMostOnce s.log ∧ CallsInOrder readingOptions s := by
  have hlog : (exec (clientStep readingOptions) Client.initial retryTrace).map (·.log)
      = some [.invoked ⟨1, "action", false⟩, .recovered ⟨1, "action"⟩ .retry,
          .invoked ⟨1, "action", false⟩] := by
    decide
  obtain ⟨s, hexec, hs⟩ := Option.map_eq_some_iff.1 hlog
  have hrun : Run (Where (stepsOf (clientStep readingOptions)) NoEarlierRead)
      Client.initial retryTrace s :=
    run_where_of_exec hexec fun s act hact =>
      noEarlierRead_of_resolves (List.all_eq_true.1
        (by decide : retryTrace.all (·.resolves) = true) act hact)
  exact ⟨s, hrun, hs, handleDelivery_at_most_once _ _ _ hrun⟩

end OperatorRuntime.Relay
