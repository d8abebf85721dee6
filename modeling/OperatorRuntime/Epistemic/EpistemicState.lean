/-
`EpistemicStateEngine` of `adaptive-intelligence/src/epistemic-state.ts`, the
part of it about one fact. Numbers are those of an ordered field, so nothing
is rounded. An observation is as `normalizeObservation` answers it, less the
two fields that `observe` and `resolve` do not read, and an absent text of an
evidence is the empty one, which no evidence has.

The engine keeps the first of the observations that agree in value, polarity
and evidence. When these are alike, the order of the observations is lost.
-/
import Mathlib.Algebra.Field.Rat
import Mathlib.Algebra.Order.Group.Unbundled.Abs
import Mathlib.Algebra.Order.Ring.Rat
import Mathlib.Data.List.Dedup
import Mathlib.Data.List.Perm.Basic
import Mathlib.Data.List.Sort
import Mathlib.Data.String.Basic
import OperatorRuntime.Text

namespace OperatorRuntime.Epistemic

-- ===== observations

inductive EpistemicStatus
  | known | supported | conflicted | stale | unknown | unobservable | disproven
  deriving DecidableEq

inductive Polarity | supports | contradicts
  deriving DecidableEq

structure EvidenceRef where
  digest : Hex64
  source : String
  observedAt : Instant
  channel : String
  scope : String
  independenceKey : String
  deriving DecidableEq

structure StoredObservation (K : Type) where
  valueDigest : Hex64
  polarity : Polarity
  confidence : K
  evidence : EvidenceRef
  expiresAt : Option Instant
  deriving DecidableEq

/-- `observedLe` is `localeCompare` of two timestamps. That of two digests is
the order of their characters. -/
structure Config (K : Type) where
  maxClaimsPerFact : Nat
  freshnessWeight : Instant → Instant → K
  observedLe : Instant → Instant → Bool
  observedLe_total : ∀ a b, observedLe a b = true ∨ observedLe b a = true
  observedLe_trans : ∀ a b c, observedLe a b = true → observedLe b c = true → observedLe a c = true

/-- What the engine holds of the fact. -/
structure Fact (K : Type) where
  claims : List (StoredObservation K)
  unobservable : Bool

/-- The three fields `duplicate` compares. -/
def StoredObservation.sameClaim {K : Type} (a b : StoredObservation K) : Bool :=
  a.valueDigest = b.valueDigest && a.polarity = b.polarity
    && a.evidence.digest = b.evidence.digest

def observe {K : Type} (cfg : Config K) (fact : Fact K) (observation : StoredObservation K) :
    Except String (Fact K) :=
  if fact.claims.any fun item => item.evidence.digest = observation.evidence.digest
      && item.evidence ≠ observation.evidence then
    .error "Conflicting epistemic evidence metadata for the same digest is rejected."
  else if fact.claims.any (·.sameClaim observation) then
    .ok ⟨fact.claims, false⟩
  else
    .ok ⟨((fact.claims ++ [observation]).insertionSort fun a b =>
      cfg.observedLe b.evidence.observedAt a.evidence.observedAt = true).take cfg.maxClaimsPerFact,
      false⟩

-- ===== resolution

variable {K : Type} [Field K] [LinearOrder K]

def clamp01 (value : K) : K :=
  max 0 (min 1 value)

def combineConfidence (values : List K) : K :=
  clamp01 (1 - values.foldl (fun remaining value => remaining * (1 - clamp01 value)) 1)

def evidenceIndependenceKey (evidence : EvidenceRef) : String :=
  if evidence.independenceKey ≠ "" then evidence.independenceKey
  else evidence.source ++ "|" ++ evidence.channel ++ "|" ++ evidence.scope

/-- The strongest of each key. -/
def independentConfidence (cfg : Config K) (items : List (StoredObservation K)) (now : Instant) : K :=
  combineConfidence ((items.map fun item => evidenceIndependenceKey item.evidence).dedup.map fun key =>
    (items.filter fun item => evidenceIndependenceKey item.evidence = key).foldl
      (fun best item => max best
        (item.confidence * cfg.freshnessWeight item.evidence.observedAt now)) 0)

/-- Newest first, then by digest. -/
def evidenceLe (cfg : Config K) (a b : EvidenceRef) : Bool :=
  cfg.observedLe b.observedAt a.observedAt
    && (!cfg.observedLe a.observedAt b.observedAt || a.digest.val ≤ b.digest.val)

/-- Two evidences of one digest that differ are an error. -/
def uniqueEvidence (cfg : Config K) (items : List EvidenceRef) : Except String (List EvidenceRef) :=
  if ∀ a ∈ items, ∀ b ∈ items, a.digest = b.digest → a = b then
    .ok (items.dedup.insertionSort fun a b => evidenceLe cfg a b = true)
  else .error "Conflicting epistemic evidence metadata for the same digest is rejected."

structure Alternative (K : Type) where
  valueDigest : Hex64
  confidence : K

/-- Strongest first, then by digest. -/
def alternativeLe (a b : Alternative K) : Bool :=
  b.confidence < a.confidence
    || a.confidence = b.confidence && a.valueDigest.val ≤ b.valueDigest.val

def alternativesOf (cfg : Config K) (supports : List (StoredObservation K)) (now : Instant) :
    List (Alternative K) :=
  ((supports.map (·.valueDigest)).dedup.map fun digest =>
    ⟨digest, independentConfidence cfg (supports.filter (·.valueDigest = digest)) now⟩).insertionSort
      fun a b => alternativeLe a b = true

def statusOf (alternatives : List (Alternative K)) (contradiction : K) : EpistemicStatus :=
  match alternatives with
  | [] => if 7 / 10 ≤ contradiction then .disproven else .unknown
  | top :: rest =>
    if rest.head?.any fun second => 9 / 20 ≤ second.confidence
        && |top.confidence - second.confidence| < 1 / 5 then .conflicted
    else if 11 / 20 ≤ contradiction ∧ 11 / 20 ≤ top.confidence then .conflicted
    else if 17 / 20 ≤ top.confidence ∧ contradiction < 7 / 20 then .known
    else if 11 / 20 ≤ top.confidence then .supported
    else .unknown

structure BeliefResolution (K : Type) where
  status : EpistemicStatus
  confidence : K
  selectedValueDigest : Option Hex64
  supportingEvidence : List EvidenceRef
  contradictingEvidence : List EvidenceRef
  staleEvidence : List EvidenceRef
  alternatives : List (Alternative K)
  updatedAt : Instant

def resolve (cfg : Config K) (fact : Fact K) (now : Instant) :
    Except String (BeliefResolution K) := do
  let live := fact.claims.filter fun item => item.expiresAt.all (now.val < ·.val)
  let stale := fact.claims.filter fun item => item.expiresAt.any (·.val ≤ now.val)
  let staleEvidence ← uniqueEvidence cfg (stale.map (·.evidence))
  if live.length = 0 then
    let status : EpistemicStatus :=
      if fact.unobservable then .unobservable else if 0 < stale.length then .stale else .unknown
    return ⟨status, 0, none, [], [], staleEvidence, [], now⟩
  let supports := live.filter (·.polarity = .supports)
  let contradicts := live.filter (·.polarity = .contradicts)
  let alternatives := alternativesOf cfg supports now
  let contradiction := independentConfidence cfg contradicts now
  let status := statusOf alternatives contradiction
  let top := alternatives.head?
  let supportingEvidence ← uniqueEvidence cfg ((supports.filter fun item =>
    top.all (item.valueDigest = ·.valueDigest)).map (·.evidence))
  let contradictingEvidence ← uniqueEvidence cfg (contradicts.map (·.evidence))
  return ⟨status, if status = .disproven then contradiction else (top.map (·.confidence)).getD 0,
    top.map (·.valueDigest), supportingEvidence, contradictingEvidence, staleEvidence,
    alternatives, now⟩

-- ===== any order

variable {cfg : Config K} {xs ys : List (StoredObservation K)} {now : Instant}

theorem combineConfidence_perm {vs ws : List K} (h : vs.Perm ws) :
    combineConfidence vs = combineConfidence ws := by
  have : RightCommutative fun remaining value : K => remaining * (1 - clamp01 value) :=
    ⟨fun remaining a b => mul_right_comm _ _ _⟩
  rw [combineConfidence, combineConfidence, h.foldl_eq]

theorem independentConfidence_perm (h : xs.Perm ys) :
    independentConfidence cfg xs now = independentConfidence cfg ys now := by
  have : RightCommutative fun (best : K) (item : StoredObservation K) => max best
      (item.confidence * cfg.freshnessWeight item.evidence.observedAt now) :=
    ⟨fun best a b => max_right_comm _ _ _⟩
  rw [independentConfidence, independentConfidence]
  simp only [(h.filter _).foldl_eq]
  exact combineConfidence_perm ((h.map _).dedup.map _)

theorem sorted_eq {α β : Type} {r : α → α → Prop} [DecidableRel r] [Std.Total r] [IsTrans α r]
    {k : α → β} {as bs : List α} (h : as.Perm bs) (hkeys : ∀ a ∈ as, ∀ b ∈ as, k a = k b → a = b)
    (hr : ∀ a b, r a b → r b a → k a = k b) : as.insertionSort r = bs.insertionSort r := by
  refine List.Perm.eq_of_pairwise ?_ (List.pairwise_insertionSort r as)
    (List.pairwise_insertionSort r bs)
    ((List.perm_insertionSort r as).trans (h.trans (List.perm_insertionSort r bs).symm))
  intro a b ha hb hab hba
  exact hkeys a ((List.mem_insertionSort r).1 ha) b
    (h.mem_iff.2 ((List.mem_insertionSort r).1 hb)) (hr a b hab hba)

omit [Field K] [LinearOrder K] in
theorem uniqueEvidence_perm {as bs : List EvidenceRef} (h : as.Perm bs) :
    uniqueEvidence cfg as = uniqueEvidence cfg bs := by
  have hiff : (∀ a ∈ as, ∀ b ∈ as, a.digest = b.digest → a = b)
      ↔ ∀ a ∈ bs, ∀ b ∈ bs, a.digest = b.digest → a = b := by
    simp only [h.mem_iff]
  unfold uniqueEvidence
  by_cases hsame : ∀ a ∈ as, ∀ b ∈ as, a.digest = b.digest → a = b
  · rw [if_pos hsame, if_pos (hiff.1 hsame)]
    have : Std.Total fun a b : EvidenceRef => evidenceLe cfg a b = true := by
      refine ⟨fun a b => ?_⟩
      have hobserved := cfg.observedLe_total a.observedAt b.observedAt
      have hdigest := le_total a.digest.val b.digest.val
      simp only [evidenceLe, Bool.and_eq_true, Bool.or_eq_true, Bool.not_eq_true', decide_eq_true_eq]
      grind
    have : IsTrans EvidenceRef fun a b => evidenceLe cfg a b = true := by
      refine ⟨fun a b c => ?_⟩
      have hobserved := cfg.observedLe_trans
      have hdigest : a.digest.val ≤ b.digest.val → b.digest.val ≤ c.digest.val →
        a.digest.val ≤ c.digest.val := le_trans
      simp only [evidenceLe, Bool.and_eq_true, Bool.or_eq_true, Bool.not_eq_true', decide_eq_true_eq]
      grind
    refine congrArg Except.ok (sorted_eq (k := EvidenceRef.digest) h.dedup ?_ ?_)
    · intro a ha b hb
      exact hsame a (List.mem_dedup.1 ha) b (List.mem_dedup.1 hb)
    · intro a b hab hba
      simp only [evidenceLe, Bool.and_eq_true, Bool.or_eq_true, Bool.not_eq_true',
        decide_eq_true_eq] at hab hba
      exact Subtype.ext (le_antisymm (by grind) (by grind))
  · rw [if_neg hsame, if_neg fun h' => hsame (hiff.2 h')]

theorem alternativesOf_perm (h : xs.Perm ys) :
    alternativesOf cfg xs now = alternativesOf cfg ys now := by
  have : Std.Total fun a b : Alternative K => alternativeLe a b = true := by
    refine ⟨fun a b => ?_⟩
    have hdigest := le_total a.valueDigest.val b.valueDigest.val
    simp only [alternativeLe, Bool.or_eq_true, Bool.and_eq_true, decide_eq_true_eq]
    rcases lt_trichotomy a.confidence b.confidence with hlt | heq | hgt
    · exact .inr (.inl hlt)
    · exact hdigest.imp (fun hd => .inr ⟨heq, hd⟩) fun hd => .inr ⟨heq.symm, hd⟩
    · exact .inl (.inl hgt)
  have : IsTrans (Alternative K) fun a b => alternativeLe a b = true := by
    refine ⟨fun a b c => ?_⟩
    simp only [alternativeLe, Bool.or_eq_true, Bool.and_eq_true, decide_eq_true_eq]
    rintro (hab | ⟨hab, hd⟩) (hbc | ⟨hbc, hd'⟩)
    · exact .inl (hbc.trans hab)
    · exact .inl (hbc ▸ hab)
    · exact .inl (hab ▸ hbc)
    · exact .inr ⟨hab.trans hbc, le_trans hd hd'⟩
  have hconfidence : ∀ digest, independentConfidence cfg (xs.filter (·.valueDigest = digest)) now
      = independentConfidence cfg (ys.filter (·.valueDigest = digest)) now :=
    fun digest => independentConfidence_perm (h.filter _)
  unfold alternativesOf
  simp only [hconfidence]
  refine sorted_eq (k := Alternative.valueDigest) ((h.map _).dedup.map _) ?_ ?_
  · intro a ha b hb heq
    obtain ⟨d, -, rfl⟩ := List.mem_map.1 ha
    obtain ⟨d', -, rfl⟩ := List.mem_map.1 hb
    obtain rfl : d = d' := heq
    rfl
  · intro a b hab hba
    simp only [alternativeLe, Bool.or_eq_true, Bool.and_eq_true, decide_eq_true_eq] at hab hba
    rcases hab with hab | ⟨hsame, hab⟩
    · rcases hba with hba | ⟨hsame, -⟩
      · exact absurd hab (lt_asymm hba)
      · exact absurd hsame hab.ne
    · rcases hba with hba | ⟨-, hba⟩
      · exact absurd hsame hba.ne
      · exact Subtype.ext (le_antisymm hab hba)

theorem resolve_perm {unobservable : Bool} (h : xs.Perm ys) :
    resolve cfg ⟨xs, unobservable⟩ now = resolve cfg ⟨ys, unobservable⟩ now := by
  have hevidence : ∀ p : StoredObservation K → Bool, ∀ {as bs : List (StoredObservation K)},
      as.Perm bs → uniqueEvidence cfg ((as.filter p).map (·.evidence))
        = uniqueEvidence cfg ((bs.filter p).map (·.evidence)) :=
    fun p _ _ h => uniqueEvidence_perm ((h.filter p).map _)
  have hlive := h.filter fun item => item.expiresAt.all (now.val < ·.val)
  simp only [resolve]
  rw [hevidence _ h, hlive.length_eq, (h.filter _).length_eq,
    alternativesOf_perm (hlive.filter _), independentConfidence_perm (hlive.filter _),
    hevidence _ (hlive.filter _), hevidence _ hlive]

-- ===== observing

section
variable {K : Type} {cfg : Config K} {xs ys : List (StoredObservation K)}

/-- Observations that agree in value, polarity and evidence are as sure and as
lasting as each other. -/
def Alike (observations : List (StoredObservation K)) : Prop :=
  ∀ a ∈ observations, ∀ b ∈ observations, a.sameClaim b = true →
    a.confidence = b.confidence ∧ a.expiresAt = b.expiresAt

theorem Alike.mono (h : Alike xs) (hsub : ∀ a ∈ ys, a ∈ xs) : Alike ys :=
  fun a ha b hb => h a (hsub a ha) b (hsub b hb)

theorem observe_ok {fact fact' : Fact K} {observation : StoredObservation K}
    (h : observe cfg fact observation = .ok fact')
    (hroom : fact.claims.length < cfg.maxClaimsPerFact) (hnodup : fact.claims.Nodup)
    (halike : Alike (observation :: fact.claims)) :
    fact'.claims.Nodup ∧ fact'.claims.length ≤ fact.claims.length + 1 ∧ fact'.unobservable = false
    ∧ ∀ a, a ∈ fact'.claims ↔ a = observation ∨ a ∈ fact.claims := by
  unfold observe at h
  split at h
  · cases h
  next hconflict =>
  split at h
  · next hdup =>
    cases h
    obtain ⟨item, hitem, hsame⟩ := List.any_eq_true.1 hdup
    obtain ⟨hconfidence, hexpires⟩ := halike item (List.mem_cons_of_mem _ hitem) observation
      (List.mem_cons_self ..) hsame
    simp only [StoredObservation.sameClaim, Bool.and_eq_true, decide_eq_true_eq] at hsame
    obtain ⟨⟨hvalue, hpolarity⟩, hdigest⟩ := hsame
    have hevidence : item.evidence = observation.evidence := by
      by_contra hne
      exact hconflict (List.any_eq_true.2 ⟨item, hitem, by simp [hdigest, hne]⟩)
    have heq : item = observation := by
      cases item
      cases observation
      rw [StoredObservation.mk.injEq]
      exact ⟨hvalue, hpolarity, hconfidence, hevidence, hexpires⟩
    refine ⟨hnodup, Nat.le_succ _, rfl, fun a => ⟨.inr, ?_⟩⟩
    rintro (rfl | ha)
    · exact heq ▸ hitem
    · exact ha
  · next hnew =>
    cases h
    have hnot : observation ∉ fact.claims := by
      intro hin
      exact hnew (List.any_eq_true.2 ⟨observation, hin, by simp [StoredObservation.sameClaim]⟩)
    have hsorted := (List.perm_insertionSort (fun a b : StoredObservation K =>
      cfg.observedLe b.evidence.observedAt a.evidence.observedAt = true)
      (fact.claims ++ [observation])).trans (List.perm_append_singleton observation fact.claims)
    have hlength := hsorted.length_eq
    rw [List.length_cons] at hlength
    dsimp only
    rw [List.take_of_length_le (by omega)]
    refine ⟨hsorted.nodup_iff.2 (List.nodup_cons.2 ⟨hnot, hnodup⟩), hlength.le, rfl, fun a => ?_⟩
    rw [hsorted.mem_iff, List.mem_cons]

theorem observeAll_ok {fact last : Fact K} (h : xs.foldlM (observe cfg) fact = .ok last)
    (hroom : fact.claims.length + xs.length ≤ cfg.maxClaimsPerFact) (hnodup : fact.claims.Nodup)
    (halike : Alike (fact.claims ++ xs)) :
    last.claims.Nodup ∧ last.unobservable = (fact.unobservable && xs.isEmpty)
    ∧ ∀ a, a ∈ last.claims ↔ a ∈ fact.claims ∨ a ∈ xs := by
  induction xs generalizing fact with
  | nil =>
    cases h
    simpa using hnodup
  | cons observation xs ih =>
    rw [List.foldlM_cons] at h
    obtain ⟨mid, hmid, h⟩ := bind_eq_ok.1 h
    rw [List.length_cons] at hroom
    obtain ⟨hmidNodup, hlength, hunobservable, hmem⟩ := observe_ok hmid (by omega) hnodup
      (halike.mono fun a ha => by
        rcases List.mem_cons.1 ha with rfl | ha
        · simp
        · exact List.mem_append_left _ ha)
    obtain ⟨hlastNodup, hlast, hlastMem⟩ := ih h (by omega) hmidNodup
      (halike.mono fun a ha => by
        rcases List.mem_append.1 ha with ha | ha
        · rcases (hmem a).1 ha with rfl | ha
          · simp
          · exact List.mem_append_left _ ha
        · exact List.mem_append_right _ (List.mem_cons_of_mem _ ha))
    refine ⟨hlastNodup, ?_, fun a => ?_⟩
    · rw [hlast, hunobservable]
      simp
    · rw [hlastMem, hmem, List.mem_cons]
      tauto

end

/-- Two orders of observing the same observations, none of them lost, are
resolved alike at every time. -/
theorem resolve_any_order (cfg : Config K) (unobservable : Bool)
    {xs ys : List (StoredObservation K)} {s t : Fact K} (hperm : xs.Perm ys)
    (hroom : xs.length ≤ cfg.maxClaimsPerFact) (halike : Alike xs)
    (hx : xs.foldlM (observe cfg) ⟨[], unobservable⟩ = .ok s)
    (hy : ys.foldlM (observe cfg) ⟨[], unobservable⟩ = .ok t) (now : Instant) :
    resolve cfg s now = resolve cfg t now := by
  obtain ⟨hs, hsUnobservable, hsMem⟩ := observeAll_ok hx (by simpa using hroom) List.nodup_nil
    (by simpa using halike)
  obtain ⟨ht, htUnobservable, htMem⟩ := observeAll_ok hy
    (by simpa [hperm.length_eq] using hroom) List.nodup_nil
    (by simpa using halike.mono fun a ha => hperm.mem_iff.2 ha)
  have hclaims : s.claims.Perm t.claims := by
    refine (List.perm_ext_iff_of_nodup hs ht).2 fun a => ?_
    rw [hsMem, htMem, hperm.mem_iff]
  obtain ⟨claims, unobservable'⟩ := s
  obtain ⟨claims', unobservable''⟩ := t
  obtain rfl : unobservable' = unobservable'' := hsUnobservable.trans
    ((congrArg (unobservable && ·) hperm.isEmpty_eq).trans htUnobservable.symm)
  exact resolve_perm hclaims

-- ===== samples

def sampleDigest : Hex64 := ⟨String.ofList (List.replicate 64 'a'), as_hex64⟩

def sampleConfig : Config ℚ where
  maxClaimsPerFact := 32
  freshnessWeight _ _ := 1
  observedLe a b := a.val ≤ b.val
  observedLe_total a b := by simpa using le_total a.val b.val
  observedLe_trans a b c := by simpa using fun h h' => le_trans h h'

def sampleObservation (polarity : Polarity) (confidence : ℚ) : StoredObservation ℚ where
  valueDigest := sampleDigest
  polarity := polarity
  confidence := confidence
  evidence := ⟨sampleDigest, "probe", ⟨0, zero_instant⟩, "", "", ""⟩
  expiresAt := none

def sampleObservations : List (StoredObservation ℚ) :=
  [sampleObservation .supports 1, sampleObservation .contradicts 1]

/-- The observations forwards and backwards. -/
theorem resolve_any_order_sample : ∃ s t,
    sampleObservations.foldlM (observe sampleConfig) ⟨[], false⟩ = .ok s
    ∧ sampleObservations.reverse.foldlM (observe sampleConfig) ⟨[], false⟩ = .ok t
    ∧ resolve sampleConfig s ⟨0, zero_instant⟩ = resolve sampleConfig t ⟨0, zero_instant⟩ := by
  have halike : Alike sampleObservations := by
    unfold Alike
    decide
  exact ⟨_, _, rfl, rfl, resolve_any_order sampleConfig false (List.reverse_perm _).symm (by decide)
    halike rfl rfl _⟩

/-- The first of two observations that differ in confidence alone is held. -/
theorem first_duplicate_counts : ∃ s t,
    [sampleObservation .supports 1, sampleObservation .supports 0].foldlM
        (observe sampleConfig) ⟨[], false⟩ = .ok s
      ∧ [sampleObservation .supports 0, sampleObservation .supports 1].foldlM
        (observe sampleConfig) ⟨[], false⟩ = .ok t
      ∧ (resolve sampleConfig s ⟨0, zero_instant⟩).map (·.status) = .ok .known
      ∧ (resolve sampleConfig t ⟨0, zero_instant⟩).map (·.status) = .ok .unknown := by
  exact ⟨_, _, rfl, rfl, by decide +kernel, by decide +kernel⟩

end OperatorRuntime.Epistemic
