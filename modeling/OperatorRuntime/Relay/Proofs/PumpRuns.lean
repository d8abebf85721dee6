/-
The pumps of one connection. What a pump checked before it awaits the
authority assertion still holds when it sends (`Ready`), provided no other
pump awaits one meanwhile: acknowledgements only make room. Two pumps that
await it together both send the same delivery (`pumps_send_twice`).
-/
import OperatorRuntime.Lib.Keyed
import OperatorRuntime.Lib.Runs
import OperatorRuntime.Relay.Pump

namespace OperatorRuntime.Relay

open Lib

section
variable {c c' : HubConnection} {next d : StoredRelayDelivery} {rest : List StoredRelayDelivery}
  {seq : Nat}

-- ===== connections

theorem set_inFlight (h : ¬ c.has next.seq) : (c.set next).inFlight = c.inFlight
    ++ [⟨next.seq, isConcurrentReadDelivery next,
      isConcurrentReadDelivery next && isHeavyReadDelivery next⟩] :=
  if_neg h

@[simp] theorem delete_has : (c.delete seq).has d.seq ↔ d.seq ≠ seq ∧ c.has d.seq := by
  unfold HubConnection.delete HubConnection.has
  constructor
  · intro h
    obtain ⟨f, hf, heq⟩ := List.mem_map.1 h
    obtain ⟨hmem, hne⟩ := List.mem_filter.1 hf
    exact ⟨heq ▸ of_decide_eq_true hne, List.mem_map.2 ⟨f, hmem, heq⟩⟩
  · rintro ⟨hne, h⟩
    obtain ⟨f, hf, heq⟩ := List.mem_map.1 h
    exact List.mem_map.2 ⟨f, List.mem_filter.2 ⟨hf, decide_eq_true (heq ▸ hne)⟩, heq⟩

theorem set_delete (h : ¬ c.has next.seq) : (c.set next).delete next.seq = c := by
  unfold HubConnection.delete
  rw [set_inFlight h, List.filter_append]
  have hkeep : (c.inFlight.filter fun f => f.seq ≠ next.seq) = c.inFlight := by
    apply List.filter_eq_self.2
    intro f hf
    exact decide_eq_true fun heq => h (List.mem_map.2 ⟨f, hf, heq⟩)
  rw [hkeep]
  simp [HubConnection.set]

def HubConnection.reads (c : HubConnection) : List Flight :=
  c.inFlight.filter (·.readOnly)

/-- The room a delivery needs. -/
def HubConnection.Room (c : HubConnection) (next : StoredRelayDelivery) : Prop :=
  (isConcurrentReadDelivery next = true → c.inFlight.length < c.readConcurrency)
    ∧ (isConcurrentReadDelivery next = false → c.inFlight = [])

theorem reads_set (hnot : ¬ c.has next.seq) (hroom : c.Room next) :
    (c.set next).reads.length ≤ c.readConcurrency := by
  unfold HubConnection.reads
  rw [set_inFlight hnot, List.filter_append, List.length_append]
  have hle := List.length_filter_le (·.readOnly) c.inFlight
  cases hread : isConcurrentReadDelivery next with
  | true =>
    have hlt := hroom.1 hread
    simp
    omega
  | false =>
    rw [hroom.2 hread]
    simp

/-- The loop stops at a delivery it has room for. -/
theorem pumpLoop_asserting {pending : List StoredRelayDelivery}
    (h : pumpLoop c pending = .asserting next rest) : ¬ c.has next.seq ∧ c.Room next := by
  induction pending with
  | nil => cases h
  | cons d ds ih =>
    unfold pumpLoop at h
    dsimp only at h
    split at h
    · exact ih h
    · next hhas =>
      split at h
      · cases h
      · next hwrite =>
        split at h
        · cases h
        · next hread =>
          split at h
          · cases h
          · split at h
            · split at h
              · cases h
              · cases h
            · cases h
              refine ⟨hhas, fun hr => ?_, fun hr => ?_⟩
              · exact Nat.not_le.1 fun hle => hread ⟨hr, hle⟩
              · apply List.eq_nil_of_length_eq_zero
                exact Nat.eq_zero_of_not_pos fun hpos => hwrite ⟨hr, hpos⟩

end

-- ===== invariant

/-- Nothing is sent twice, what was sent is in flight or acknowledged, and
the reads in flight stay within the bound. -/
structure Flying (s : PumpSystem) : Prop where
  once : (s.sent.map (·.seq)).Nodup
  flights : s.connection.isOpen = true → ∀ d ∈ s.sent,
    s.connection.has d.seq ∨ d.seq ≤ s.stream.lastAckedSeq
  reads : s.connection.reads.length ≤ s.connection.readConcurrency

/-- The delivery can still be sent. -/
structure Ready (s : PumpSystem) (next : StoredRelayDelivery) : Prop where
  new : ¬ s.connection.has next.seq
  room : s.connection.Room next
  unsent : s.connection.isOpen = true → ∀ d ∈ s.sent, d.seq ≠ next.seq

structure PumpInv (s : PumpSystem) : Prop where
  flying : Flying s
  ready : ∀ (i : Nat) next rest, s.pumps[i]? = some (.asserting next rest) → Ready s next
  single : ∀ (i j : Nat) next rest next' rest', s.pumps[i]? = some (.asserting next rest) →
    s.pumps[j]? = some (.asserting next' rest') → i = j

section
variable {s s' : PumpSystem} {act : PumpAct}

theorem PumpInv.start (stream : DeviceDeliveryStream) (readConcurrency : Nat)
    (capabilities : List String) :
    PumpInv (PumpSystem.start stream readConcurrency capabilities) where
  flying := ⟨List.nodup_nil, fun _ _ hd => (nomatch hd), Nat.zero_le _⟩
  ready := fun i _ _ h => by cases i <;> cases h
  single := fun i _ _ _ _ _ h => by cases i <;> cases h

theorem Ready.of_sublist {next : StoredRelayDelivery} {connection : HubConnection}
    {stream : DeviceDeliveryStream} {pumps : List Pump} (h : Ready s next)
    (hsub : List.Sublist connection.inFlight s.connection.inFlight)
    (hsame : connection.readConcurrency = s.connection.readConcurrency)
    (hopen : connection.isOpen = true → s.connection.isOpen = true) :
    Ready ⟨stream, connection, pumps, s.sent⟩ next where
  new := fun hhas => h.new ((hsub.map _).subset hhas)
  room := by
    refine ⟨fun hr => ?_, fun hr => ?_⟩
    · rw [hsame]
      exact Nat.lt_of_le_of_lt hsub.length_le (h.room.1 hr)
    · have hnil := h.room.2 hr
      rw [hnil] at hsub
      exact List.sublist_nil.1 hsub
  unsent := fun ho => h.unsent (hopen ho)

theorem PumpInv.shrink {connection : HubConnection} {stream : DeviceDeliveryStream}
    {pumps : List Pump} (h : PumpInv s)
    (hsub : List.Sublist connection.inFlight s.connection.inFlight)
    (hsame : connection.readConcurrency = s.connection.readConcurrency)
    (hopen : connection.isOpen = true → s.connection.isOpen = true)
    (hflights : connection.isOpen = true → ∀ d ∈ s.sent,
      connection.has d.seq ∨ d.seq ≤ stream.lastAckedSeq)
    (hpumps : ∀ (i : Nat) next rest, pumps[i]? = some (.asserting next rest) →
      s.pumps[i]? = some (.asserting next rest)) :
    PumpInv ⟨stream, connection, pumps, s.sent⟩ where
  flying := by
    refine ⟨h.flying.once, hflights, ?_⟩
    show (connection.inFlight.filter (·.readOnly)).length ≤ connection.readConcurrency
    rw [hsame]
    exact Nat.le_trans (hsub.filter _).length_le h.flying.reads
  ready := fun i next rest hi => (h.ready i next rest (hpumps i next rest hi)).of_sublist
    hsub hsame hopen
  single := fun i j next rest next' rest' hi hj =>
    h.single i j next rest next' rest' (hpumps i next rest hi) (hpumps j next' rest' hj)

theorem PumpInv.closed (h : PumpInv s) {pumps : List Pump}
    (hpumps : ∀ (i : Nat) next rest, pumps[i]? = some (.asserting next rest) →
      s.pumps[i]? = some (.asserting next rest)) :
    PumpInv { s with connection := s.connection.closed, pumps := pumps } :=
  h.shrink (List.nil_sublist _) rfl (fun ho => nomatch ho) (fun ho => nomatch ho) hpumps

theorem PumpInv.set (h : PumpInv s) (i : Nat) {p : Pump}
    (hp : ∀ next rest, p ≠ .asserting next rest) : PumpInv { s with pumps := s.pumps.set i p } := by
  refine h.shrink (List.Sublist.refl _) rfl id h.flying.flights ?_
  intro j next rest hj
  rcases getElem?_set_cases hj with ⟨-, heq⟩ | ⟨-, hj⟩
  · exact absurd heq.symm (hp next rest)
  · exact hj

theorem PumpInv.turn {i : Nat} {p : Pump} (hflying : Flying s)
    (hready : ∀ next rest, p = .asserting next rest → Ready s next)
    (halone : ∀ (j : Nat) next rest, j ≠ i → s.pumps[j]? ≠ some (.asserting next rest)) :
    PumpInv { s with pumps := s.pumps.set i p } where
  flying := ⟨hflying.once, hflying.flights, hflying.reads⟩
  ready := by
    intro j next rest hj
    rcases getElem?_set_cases hj with ⟨-, heq⟩ | ⟨hne, hj⟩
    · obtain ⟨hnew, hroom, hunsent⟩ := hready next rest heq.symm
      exact ⟨hnew, hroom, hunsent⟩
    · exact absurd hj (halone j next rest hne)
  single := by
    have heq : ∀ (j : Nat) next rest, (s.pumps.set i p)[j]? = some (.asserting next rest) →
        j = i := by
      intro j next rest hj
      rcases getElem?_set_cases hj with ⟨heq, -⟩ | ⟨hne, hj⟩
      · exact heq
      · exact absurd hj (halone j next rest hne)
    intro j k next rest next' rest' hj hk
    rw [heq j next rest hj, heq k next' rest' hk]

theorem ready_of_pumpLoop (hflying : Flying s) {pending rest : List StoredRelayDelivery}
    {next : StoredRelayDelivery} (h : pumpLoop s.connection pending = .asserting next rest)
    (hnew : s.stream.lastAckedSeq < next.seq) : Ready s next := by
  obtain ⟨hnot, hroom⟩ := pumpLoop_asserting h
  refine ⟨hnot, hroom, ?_⟩
  intro ho d hd heq
  rcases hflying.flights ho d hd with hhas | hle
  · rw [heq] at hhas
    exact hnot hhas
  · omega

theorem Flying.send (h : Flying s) {next : StoredRelayDelivery} (hready : Ready s next) :
    Flying { s with
      connection := s.connection.set next
      sent := if s.connection.isOpen then s.sent ++ [next] else s.sent } := by
  refine ⟨?_, ?_, reads_set hready.new hready.room⟩
  · show ((if s.connection.isOpen then s.sent ++ [next] else s.sent).map (·.seq)).Nodup
    split
    · next ho =>
      rw [List.map_append, List.map_singleton, ← List.concat_eq_append]
      refine List.Nodup.concat ?_ h.once
      intro hmem
      obtain ⟨d, hd, heq⟩ := List.mem_map.1 hmem
      exact hready.unsent ho d hd heq
    · exact h.once
  · intro ho d hd
    have ho' : s.connection.isOpen = true := ho
    dsimp only at hd ⊢
    rw [if_pos ho'] at hd
    unfold HubConnection.has
    rw [set_inFlight hready.new, List.map_append, List.mem_append]
    rcases List.mem_append.1 hd with hd | hd
    · rcases h.flights ho' d hd with hhas | hle
      · exact .inl (.inl hhas)
      · exact .inr hle
    · rw [List.mem_singleton.1 hd]
      exact .inl (.inr (List.mem_singleton.2 rfl))

theorem PumpInv.authorized (h : PumpInv s) {i : Nat} {verdict : Verdict}
    {next : StoredRelayDelivery} {rest : List StoredRelayDelivery}
    (hi : s.pumps[i]? = some (.asserting next rest)) (happart : Apart s (.authorize i verdict)) :
    PumpInv (s.authorized i next rest verdict) := by
  have hready := h.ready i next rest hi
  have hstep : pumpStep s (.authorize i verdict) = some (s.authorized i next rest verdict) := by
    simp [pumpStep, hi]
  cases verdict with
  | refused => exact h.set i fun _ _ heq => nomatch heq
  | unsendable =>
    unfold PumpSystem.authorized
    dsimp only
    rw [set_delete hready.new]
    exact h.set i fun _ _ heq => nomatch heq
  | sent =>
    have halone : ∀ (j : Nat) next' rest', j ≠ i →
        s.pumps[j]? ≠ some (.asserting next' rest') := by
      intro j next' rest' hne hj
      exact hne (h.single j i next' rest' next rest hj hi)
    refine PumpInv.turn (h.flying.send hready) ?_ halone
    intro next' rest' hp
    split at hp
    · apply ready_of_pumpLoop (h.flying.send hready) hp
      refine (happart _ i next' rest' hstep rfl ?_).1
      have hlt : i < s.pumps.length := (List.getElem?_eq_some_iff.1 hi).1
      unfold PumpSystem.authorized
      dsimp only
      rw [List.getElem?_set_self hlt, ← hp]
      simp_all
    · cases hp

/-- One step of one of the pumps. -/
theorem PumpInv.step (h : PumpInv s) (happart : Apart s act) (hstep : pumpStep s act = some s') :
    PumpInv s' := by
  have hall := happart s'
  unfold pumpStep at hstep
  cases act with
  | store stream =>
    dsimp only at hstep
    split at hstep
    · next hle =>
      obtain rfl := Option.some.inj hstep
      refine h.shrink (List.Sublist.refl _) rfl id ?_ fun _ _ _ hi => hi
      intro ho d hd
      rcases h.flying.flights ho d hd with hhas | hacked
      · exact .inl hhas
      · exact .inr (Nat.le_trans hacked hle)
    · cases hstep
  | start =>
    obtain rfl := Option.some.inj hstep
    refine h.shrink (List.Sublist.refl _) rfl id h.flying.flights ?_
    intro i next rest hi
    rw [List.getElem?_append] at hi
    split at hi
    · exact hi
    · exfalso
      cases hk : i - s.pumps.length with
      | zero =>
        rw [hk] at hi
        unfold pumpStart at hi
        split at hi <;> cases hi
      | succ k =>
        rw [hk] at hi
        cases hi
  | fetch i =>
    dsimp only at hstep
    split at hstep
    · obtain rfl := Option.some.inj hstep
      exact h.set i fun _ _ heq => nomatch heq
    · cases hstep
  | resume i =>
    dsimp only at hstep
    split at hstep
    · next pending hi =>
      have hlt : i < s.pumps.length := (List.getElem?_eq_some_iff.1 hi).1
      have hsome : pumpStep s (.resume i) = some s' := by
        simp only [pumpStep, hi]
        exact hstep
      obtain rfl := Option.some.inj hstep
      cases hloop : pumpLoop s.connection pending with
      | asserting next rest =>
        obtain ⟨hnew, halone⟩ := hall i next rest hsome rfl (by
          dsimp only
          rw [List.getElem?_set_self hlt, hloop])
        refine PumpInv.turn h.flying ?_ halone
        intro next' rest' heq
        cases heq
        exact ready_of_pumpLoop h.flying hloop hnew
      | fetching _ => exact h.set i fun _ _ heq => nomatch heq
      | fetched _ => exact h.set i fun _ _ heq => nomatch heq
      | retiring => exact h.set i fun _ _ heq => nomatch heq
      | done => exact h.set i fun _ _ heq => nomatch heq
    · cases hstep
  | authorize i verdict =>
    dsimp only at hstep
    split at hstep
    · next next rest hi =>
      obtain rfl := Option.some.inj hstep
      exact h.authorized hi happart
    · cases hstep
  | retire i closes =>
    dsimp only at hstep
    split at hstep
    · obtain rfl := Option.some.inj hstep
      have hset : PumpInv { s with pumps := s.pumps.set i .done } :=
        h.set i fun _ _ heq => nomatch heq
      cases closes with
      | true => exact hset.closed fun _ _ _ hi => hi
      | false => exact hset
    · cases hstep
  | acked seq =>
    dsimp only at hstep
    split at hstep
    · next hle =>
      obtain rfl := Option.some.inj hstep
      refine h.shrink List.filter_sublist rfl id ?_ fun _ _ _ hi => hi
      intro ho d hd
      by_cases hseq : d.seq = seq
      · exact .inr (hseq ▸ hle)
      · rw [delete_has]
        rcases h.flying.flights ho d hd with hhas | hacked
        · exact .inl ⟨hseq, hhas⟩
        · exact .inr hacked
    · cases hstep
  | close =>
    obtain rfl := Option.some.inj hstep
    exact h.closed fun _ _ _ hi => hi

/-- A pump sends only what is ready. -/
theorem sends_ready (h : PumpInv s) (hstep : pumpStep s act = some s')
    {d : StoredRelayDelivery} (hsent : s'.sent = s.sent ++ [d]) : Ready s d := by
  have hnot : s.sent ≠ s.sent ++ [d] := by simp
  cases act with
  | authorize i verdict =>
    simp only [pumpStep] at hstep
    split at hstep
    · next next rest hi =>
      obtain rfl := Option.some.inj hstep
      cases verdict with
      | refused => exact absurd hsent hnot
      | unsendable => exact absurd hsent hnot
      | sent =>
        simp only [PumpSystem.authorized] at hsent
        split at hsent
        · have heq := List.append_cancel_left hsent
          cases heq
          exact h.ready i _ rest hi
        · exact absurd hsent hnot
    · cases hstep
  | store _ | fetch _ | resume _ | retire _ _ | acked _ =>
    simp only [pumpStep] at hstep
    split at hstep
    · obtain rfl := Option.some.inj hstep
      exact absurd hsent hnot
    · cases hstep
  | start | close =>
    obtain rfl := Option.some.inj hstep
    exact absurd hsent hnot

end

-- ===== runs

/-- In every run in which a pump turns to an authority assertion only while
no other awaits one and only for a delivery that is not acknowledged: no
delivery is sent twice, the reads in flight stay within the bound, and a
delivery that is not a read is sent only when nothing is in flight. -/
theorem pumps_sound (stream : DeviceDeliveryStream) (readConcurrency : Nat)
    (capabilities : List String) (acts : List PumpAct) (s : PumpSystem)
    (h : Run (Where (stepsOf pumpStep) Apart)
      (PumpSystem.start stream readConcurrency capabilities) acts s) : (s.sent.map (·.seq)).Nodup
    ∧ s.connection.reads.length ≤ s.connection.readConcurrency
    ∧ ∀ act s', pumpStep s act = some s' → ∀ d, s'.sent = s.sent ++ [d] →
        isConcurrentReadDelivery d = false → s.connection.inFlight = [] := by
  have hinv : PumpInv s :=
    h.invariant (PumpInv.start _ _ _) fun hinv hstep => hinv.step hstep.2 hstep.1
  refine ⟨hinv.flying.once, hinv.flying.reads, ?_⟩
  intro act s' hstep d hsent hread
  exact (sends_ready hinv hstep hsent).room.2 hread

-- ===== samples

def pumpUuid : Uuid := onesUuid

def pumpDelivery : StoredRelayDelivery where
  seq := 1
  id := pumpUuid
  kind := ⟨"event", by decide⟩
  payload := []
  requiredCapabilities := some []
  authority := some ⟨pumpUuid, pumpUuid, ⟨1, by decide⟩⟩
  createdAt := ⟨0, zero_instant⟩
  status := .pending

theorem pumpDelivery_not_read : isConcurrentReadDelivery pumpDelivery = false := by
  decide

def pumpStream : DeviceDeliveryStream :=
  { newStream pumpUuid with nextSeq := 2, deliveries := [pumpDelivery] }

/-- The state in which some pumps await the assertion for the delivery. -/
def awaiting (count : Nat) : PumpSystem :=
  ⟨pumpStream, ⟨1, [], [], true⟩, List.replicate count (.asserting pumpDelivery []), []⟩

/-- A pump sends the delivery it awaited authority for. -/
theorem pumps_sound_sample : ∃ s', pumpStep (awaiting 1) (.authorize 0 .sent) = some s'
    ∧ s'.sent = [pumpDelivery] ∧ (awaiting 1).connection.inFlight = [] := by
  have hrun : Run (Where (stepsOf pumpStep) Apart) (PumpSystem.start pumpStream 1 [])
      ([] ++ [.start] ++ [.fetch 0] ++ [.resume 0]) (awaiting 1) := by
    refine Run.snoc (Run.snoc (Run.snoc Run.nil ⟨rfl, ?_⟩) ⟨rfl, ?_⟩) ⟨rfl, ?_⟩
    · intro _ _ _ _ _ hpump
      cases hpump
    · intro _ _ _ _ hstep hpump hasserting
      cases hpump
      cases hstep
      cases hasserting
    · intro _ _ _ _ hstep hpump hasserting
      cases hpump
      cases hstep
      cases hasserting
      refine ⟨Nat.one_pos, ?_⟩
      intro j next' rest' hne hj
      cases j with
      | zero => exact hne rfl
      | succ j => cases hj
  exact ⟨_, rfl, rfl, (pumps_sound pumpStream 1 [] _ _ hrun).2.2 (.authorize 0 .sent) _ rfl
    pumpDelivery rfl pumpDelivery_not_read⟩

/-- Two pumps of one dispatch each check that nothing is in flight, await
the assertion, and send the delivery. -/
theorem pumps_send_twice : ∃ acts s s',
    Run (stepsOf pumpStep) (PumpSystem.start pumpStream 1 []) acts s
    ∧ pumpStep s (.authorize 1 .sent) = some s'
    ∧ s.connection.inFlight ≠ [] ∧ isConcurrentReadDelivery pumpDelivery = false
    ∧ s'.sent = [pumpDelivery, pumpDelivery] := by
  refine ⟨[.start, .start, .fetch 0, .fetch 1, .resume 0, .resume 1, .authorize 0 .sent], _, _,
    run_of_exec rfl, rfl, ?_, pumpDelivery_not_read, rfl⟩
  exact fun h => nomatch h

end OperatorRuntime.Relay
