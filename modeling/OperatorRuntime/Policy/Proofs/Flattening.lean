/-
Flattening widens nothing but the lifetime. Patterns and prefixes nest, so what
the summary allows lies under a pattern and a prefix that one source covers; but
the summary ends at the expiry whose text sorts first, and a year that is not of
four digits sorts before those that are. `mergeUnion_sound_iff` says when the
sources bear it, in their own terms (`Lasting`, which `lasting_iff` brings to
what the code computes).
-/
import OperatorRuntime.JsonText
import OperatorRuntime.Policy.Delegation
import OperatorRuntime.Policy.Proofs.Delegation

namespace OperatorRuntime.Principals

open Lib
open Policy (riskOrder mem_union union_eq_nil)

variable {grants normalized : List AuthorityGrant} {summary : AuthorityGrant}

-- ===== the pieces

/-- The grant lasts until the instant. -/
def Outlives (g : AuthorityGrant) (limit : Instant) : Prop :=
  ∀ e ∈ g.expiry, limit.val ≤ e.val

/-- A sort of the texts puts the expiry first; of equal texts the first one
stays first. -/
def SortsFirst (limit : Instant) (expiries : List Instant) : Prop :=
  ∃ before after, expiries = before ++ limit :: after
    ∧ (∀ e ∈ before, Json.keyLe e.isoText limit.isoText = false)
    ∧ ∀ e ∈ after, Json.keyLe limit.isoText e.isoText = true

/-- The sources state the place: a prefix of one of them, or no prefix when
one of them has none. -/
def StatesPlace (grants : List AuthorityGrant) : Option String → Prop
  | none => ∃ g ∈ grants, g.resourcePrefixes = []
  | some r => (∃ g ∈ grants, r ∈ g.resourcePrefixes) ∧ ∀ g ∈ grants, g.resourcePrefixes ≠ []

/-- The source has a pattern for the capability and a prefix for the place. -/
structure Holds (g : AuthorityGrant) (capability : String) (place : Option String) : Prop where
  capability : ∃ rule ∈ g.capabilities, matchesCapability capability rule = true
  place : g.resourcePrefixes = []
    ∨ ∃ r ∈ place, ∃ outer ∈ g.resourcePrefixes, withinPrefix r outer = true

/-- Each capability and place that the sources state is held by a source that
lasts until the expiry whose text sorts first. -/
def Lasting (grants : List AuthorityGrant) : Prop :=
  ∀ limit, SortsFirst limit (grants.filterMap (·.expiry)) →
    ∀ source ∈ grants, ∀ capability ∈ source.capabilities, ∀ place, StatesPlace grants place →
      ∃ g ∈ grants, Holds g capability place ∧ Outlives g limit

variable {maxRisk : ActionRisk} {capability : String} {resource : Option String}

/-- What the check of a cross product asks of a source. -/
theorem covers_iff {source : AuthorityGrant} : covers maxRisk capability resource source = true
    ↔ riskOrder maxRisk ≤ riskOrder source.maxRisk
      ∧ (∃ rule ∈ source.capabilities, matchesCapability capability rule = true)
      ∧ (source.resourcePrefixes = []
        ∨ ∃ r ∈ resource, ∃ outer ∈ source.resourcePrefixes, withinPrefix r outer = true) := by
  cases resource with
  | none => simp [covers, and_assoc]
  | some r => simp [covers, and_assoc]

theorem matchesCapability_self (capability : String) : matchesCapability capability capability = true := by
  simp [matchesCapability, Policy.ruleCovers]

theorem withinPrefix_self (resource : String) : withinPrefix resource resource = true := by
  simp [withinPrefix]

theorem mem_resourcesForCheck {prefixes : List String} : resource ∈ resourcesForCheck prefixes
    ↔ (prefixes = [] ∧ resource = none) ∨ ∃ r ∈ prefixes, resource = some r := by
  cases prefixes with
  | nil => simp [resourcesForCheck]
  | cons p prefixes => simp [resourcesForCheck, eq_comm]

/-- Validated one by one. -/
def AllSame (grants normalized : List AuthorityGrant) : Prop :=
  List.Forall₂ Same grants normalized

theorem allSame_of_mapM (h : grants.mapM validateAuthorityGrant = .ok normalized) :
    AllSame grants normalized := by
  induction grants generalizing normalized with
  | nil =>
    rw [← Except.ok.inj h]
    exact .nil
  | cons g grants ih =>
    obtain ⟨g', hg, rest, hrest, rfl⟩ := mapM_cons_eq_ok.1 h
    exact .cons (validateAuthorityGrant_same hg) (ih hrest)

namespace AllSame

theorem exists_left (h : AllSame grants normalized) {g' : AuthorityGrant} (hg : g' ∈ normalized) :
    ∃ g ∈ grants, Same g g' := by
  induction h with
  | nil => cases hg
  | cons hsame _ ih =>
    rcases List.mem_cons.1 hg with rfl | hg
    · exact ⟨_, List.mem_cons_self .., hsame⟩
    · obtain ⟨g, hmem, hsame⟩ := ih hg
      exact ⟨g, List.mem_cons_of_mem _ hmem, hsame⟩

theorem exists_right (h : AllSame grants normalized) {g : AuthorityGrant} (hg : g ∈ grants) :
    ∃ g' ∈ normalized, Same g g' := by
  induction h with
  | nil => cases hg
  | cons hsame _ ih =>
    rcases List.mem_cons.1 hg with rfl | hg
    · exact ⟨_, List.mem_cons_self .., hsame⟩
    · obtain ⟨g', hmem, hsame⟩ := ih hg
      exact ⟨g', List.mem_cons_of_mem _ hmem, hsame⟩

theorem leastRisk_eq (h : AllSame grants normalized) : leastRisk normalized = leastRisk grants := by
  have hgo : ∀ least, normalized.foldl
      (fun least g => if riskOrder g.maxRisk < riskOrder least then g.maxRisk else least) least
      = grants.foldl
      (fun least g => if riskOrder g.maxRisk < riskOrder least then g.maxRisk else least) least := by
    induction h with
    | nil =>
      intro least
      rfl
    | cons hsame _ ih =>
      intro least
      rw [List.foldl_cons, List.foldl_cons, hsame.maxRisk, ih]
  exact hgo _

theorem expiries_eq (h : AllSame grants normalized) :
    normalized.filterMap (·.expiry) = grants.filterMap (·.expiry) := by
  induction h with
  | nil => rfl
  | cons hsame _ ih => rw [List.filterMap_cons, List.filterMap_cons, hsame.expiry, ih]

end AllSame

variable {g : AuthorityGrant}

theorem Same.nil_iff {g' : AuthorityGrant} (h : Same g g') :
    g'.resourcePrefixes = [] ↔ g.resourcePrefixes = [] := by
  simp only [List.eq_nil_iff_forall_not_mem, h.resources]

theorem Same.covers_eq {g' : AuthorityGrant} (h : Same g g') :
    covers maxRisk capability resource g' = true ↔ covers maxRisk capability resource g = true := by
  rw [covers_iff, covers_iff, h.maxRisk, h.nil_iff]
  simp only [h.capabilities, h.resources]

theorem mem_unionPrefixes {r : String} :
    r ∈ unionPrefixes grants ↔ (∀ g ∈ grants, g.resourcePrefixes ≠ [])
    ∧ ∃ g ∈ grants, r ∈ g.resourcePrefixes := by
  rw [unionPrefixes]
  split
  · next hany =>
    obtain ⟨g, hg, hempty⟩ := List.any_eq_true.1 hany
    constructor
    · intro h
      cases h
    · intro h
      exact absurd (List.isEmpty_iff.1 hempty) (h.1 g hg)
  · next hany =>
    rw [mem_union, List.mem_flatMap]
    constructor
    · intro h
      refine ⟨?_, h⟩
      intro g hg hnil
      exact hany (List.any_eq_true.2 ⟨g, hg, List.isEmpty_iff.2 hnil⟩)
    · intro h
      exact h.2

theorem AllSame.mem_unionPrefixes_iff (h : AllSame grants normalized) {r : String} :
    r ∈ unionPrefixes normalized ↔ r ∈ unionPrefixes grants := by
  rw [mem_unionPrefixes, mem_unionPrefixes]
  constructor
  · intro hr
    obtain ⟨hne, g', hg', hr⟩ := hr
    obtain ⟨g, hg, hsame⟩ := h.exists_left hg'
    refine ⟨?_, g, hg, (hsame.resources r).1 hr⟩
    intro g hg hnil
    obtain ⟨g', hg', hsame⟩ := h.exists_right hg
    exact hne g' hg' (hsame.nil_iff.2 hnil)
  · intro hr
    obtain ⟨hne, g, hg, hr⟩ := hr
    obtain ⟨g', hg', hsame⟩ := h.exists_right hg
    refine ⟨?_, g', hg', (hsame.resources r).2 hr⟩
    intro g' hg' hnil
    obtain ⟨g, hg, hsame⟩ := h.exists_left hg'
    exact hne g hg (hsame.nil_iff.1 hnil)

theorem AllSame.mem_resourcesForCheck_iff (h : AllSame grants normalized) :
    resource ∈ resourcesForCheck (unionPrefixes normalized)
    ↔ resource ∈ resourcesForCheck (unionPrefixes grants) := by
  rw [mem_resourcesForCheck, mem_resourcesForCheck]
  simp only [List.eq_nil_iff_forall_not_mem, h.mem_unionPrefixes_iff]

-- ===== the condition

theorem sortsFirst_unique {limit limit' : Instant} {expiries : List Instant}
    (h : SortsFirst limit expiries) (h' : SortsFirst limit' expiries) : limit = limit' := by
  obtain ⟨before, after, rfl, hbefore, hafter⟩ := h
  obtain ⟨before', after', heq, hbefore', hafter'⟩ := h'
  rcases List.append_eq_append_iff.1 heq with ⟨rest, rfl, htail⟩ | ⟨rest, rfl, htail⟩
  · cases rest with
    | nil => exact (List.cons.inj htail).1
    | cons e rest =>
      obtain ⟨rfl, rfl⟩ := List.cons.inj htail
      have hle := hafter limit' (by simp)
      rw [hbefore' limit (by simp)] at hle
      cases hle
  · cases rest with
    | nil => exact (List.cons.inj htail).1.symm
    | cons e rest =>
      obtain ⟨rfl, rfl⟩ := List.cons.inj htail
      have hle := hafter' limit (by simp)
      rw [hbefore limit' (by simp)] at hle
      cases hle

theorem sortsFirst_cons {a limit : Instant} {expiries : List Instant}
    (h : SortsFirst limit expiries) :
    SortsFirst (if Json.keyLe a.isoText limit.isoText = true then a else limit) (a :: expiries) := by
  obtain ⟨before, after, rfl, hbefore, hafter⟩ := h
  split
  · next hle =>
    refine ⟨[], before ++ limit :: after, rfl, fun _ he => (nomatch he), ?_⟩
    intro e he
    rcases List.mem_append.1 he with he | he
    · exact Json.keyLe_trans hle (Json.keyLe_of_not (hbefore e he))
    · rcases List.mem_cons.1 he with rfl | he
      · exact hle
      · exact Json.keyLe_trans hle (hafter e he)
  · next hnot =>
    refine ⟨a :: before, after, rfl, ?_, hafter⟩
    intro e he
    rcases List.mem_cons.1 he with rfl | he
    · simpa using hnot
    · exact hbefore e he

theorem firstExpiry_cons (a : Instant) (expiries : List Instant) :
    firstExpiry (a :: expiries) = some (match firstExpiry expiries with
      | none => a
      | some limit => if Json.keyLe a.isoText limit.isoText = true then a else limit) := by
  rw [firstExpiry, List.insertionSort_cons, firstExpiry]
  cases expiries.insertionSort fun a b => Json.keyLe a.isoText b.isoText = true with
  | nil => rfl
  | cons b rest =>
    rw [List.orderedInsert_cons]
    dsimp only [List.head?_cons]
    split <;> rfl

theorem sortsFirst_of_firstExpiry {limit : Instant} {expiries : List Instant}
    (h : firstExpiry expiries = some limit) : SortsFirst limit expiries := by
  induction expiries generalizing limit with
  | nil => cases h
  | cons a expiries ih =>
    rw [firstExpiry_cons, Option.some.injEq] at h
    subst h
    cases hrest : firstExpiry expiries with
    | none =>
      have hnil : expiries = [] := by
        cases expiries with
        | nil => rfl
        | cons b rest =>
          rw [firstExpiry_cons] at hrest
          cases hrest
      subst hnil
      exact ⟨[], [], rfl, fun _ he => (nomatch he), fun _ he => (nomatch he)⟩
    | some first => exact sortsFirst_cons (ih hrest)

theorem sortsFirst_iff {limit : Instant} {expiries : List Instant} :
    SortsFirst limit expiries ↔ limit ∈ firstExpiry expiries := by
  refine ⟨?_, sortsFirst_of_firstExpiry⟩
  intro h
  cases hfirst : firstExpiry expiries with
  | some first =>
    rw [sortsFirst_unique h (sortsFirst_of_firstExpiry hfirst)]
    exact rfl
  | none =>
    obtain ⟨before, after, rfl, -, -⟩ := h
    cases before with
    | nil =>
      rw [List.nil_append, firstExpiry_cons] at hfirst
      cases hfirst
    | cons a before =>
      rw [List.cons_append, firstExpiry_cons] at hfirst
      cases hfirst

theorem leastRisk_le (hg : g ∈ grants) : riskOrder (leastRisk grants) ≤ riskOrder g.maxRisk := by
  have hgo : ∀ least : ActionRisk, riskOrder (grants.foldl
      (fun least g => if riskOrder g.maxRisk < riskOrder least then g.maxRisk else least) least)
        ≤ riskOrder least
      ∧ ∀ g ∈ grants, riskOrder (grants.foldl
        (fun least g => if riskOrder g.maxRisk < riskOrder least then g.maxRisk else least) least)
          ≤ riskOrder g.maxRisk := by
    clear hg
    induction grants with
    | nil => exact fun least => ⟨le_refl _, fun _ hg => (nomatch hg)⟩
    | cons first grants ih =>
      intro least
      rw [List.foldl_cons]
      obtain ⟨hleast, hrest⟩ :=
        ih (if riskOrder first.maxRisk < riskOrder least then first.maxRisk else least)
      have hboth : riskOrder (if riskOrder first.maxRisk < riskOrder least then first.maxRisk
            else least) ≤ riskOrder least
          ∧ riskOrder (if riskOrder first.maxRisk < riskOrder least then first.maxRisk
            else least) ≤ riskOrder first.maxRisk := by
        split <;> omega
      refine ⟨hleast.trans hboth.1, ?_⟩
      intro x hx
      rcases List.mem_cons.1 hx with rfl | hx
      · exact hleast.trans hboth.2
      · exact hrest x hx
  exact (hgo _).2 g hg

theorem mem_places (hne : grants ≠ []) :
    resource ∈ resourcesForCheck (unionPrefixes grants) ↔ StatesPlace grants resource := by
  rw [mem_resourcesForCheck]
  cases resource with
  | none =>
    simp only [and_true, reduceCtorEq, and_false, exists_false, or_false, StatesPlace]
    rw [List.eq_nil_iff_forall_not_mem]
    constructor
    · intro h
      by_contra hnone
      push Not at hnone
      obtain ⟨g, hg⟩ := List.exists_mem_of_ne_nil _ hne
      obtain ⟨r, hr⟩ := List.exists_mem_of_ne_nil _ (hnone g hg)
      exact h r (mem_unionPrefixes.2 ⟨hnone, g, hg, hr⟩)
    · rintro ⟨g, hg, hnil⟩ r hr
      exact (mem_unionPrefixes.1 hr).1 g hg hnil
  | some r =>
    simp only [reduceCtorEq, and_false, false_or, Option.some.injEq, StatesPlace]
    constructor
    · rintro ⟨r, hr, rfl⟩
      exact (mem_unionPrefixes.1 hr).symm
    · intro h
      exact ⟨r, mem_unionPrefixes.2 h.symm, rfl⟩

theorem covers_least (hg : g ∈ grants) :
    covers (leastRisk grants) capability resource g = true ↔ Holds g capability resource := by
  rw [covers_iff]
  exact ⟨fun h => ⟨h.2.1, h.2.2⟩, fun h => ⟨leastRisk_le hg, h.capability, h.place⟩⟩

/-- The condition on what `mergeUnion` computes of the sources. -/
theorem lasting_iff : Lasting grants ↔ ∀ limit ∈ firstExpiry (grants.filterMap (·.expiry)),
    ∀ capability ∈ grants.flatMap (·.capabilities),
    ∀ resource ∈ resourcesForCheck (unionPrefixes grants),
      ∃ g ∈ grants, covers (leastRisk grants) capability resource g = true ∧ Outlives g limit := by
  constructor
  · intro h limit hlimit capability hcapability resource hresource
    obtain ⟨source, hsource, hcapability⟩ := List.mem_flatMap.1 hcapability
    obtain ⟨g, hg, hholds, hlasts⟩ := h limit (sortsFirst_iff.2 hlimit) source hsource capability
      hcapability resource ((mem_places (List.ne_nil_of_mem hsource)).1 hresource)
    exact ⟨g, hg, (covers_least hg).2 hholds, hlasts⟩
  · intro h limit hlimit source hsource capability hcapability place hplace
    obtain ⟨g, hg, hcovers, hlasts⟩ := h limit (sortsFirst_iff.1 hlimit) capability
      (List.mem_flatMap.2 ⟨source, hsource, hcapability⟩) place
      ((mem_places (List.ne_nil_of_mem hsource)).2 hplace)
    exact ⟨g, hg, (covers_least hg).1 hcovers, hlasts⟩

/-- What the summary of the grants is, on the grants as they are passed. -/
structure Merged (grants : List AuthorityGrant) (summary : AuthorityGrant) : Prop where
  capabilities : ∀ capability, capability ∈ summary.capabilities
    ↔ capability ∈ grants.flatMap (·.capabilities)
  resources : ∀ r, r ∈ summary.resourcePrefixes ↔ r ∈ unionPrefixes grants
  maxRisk : summary.maxRisk = leastRisk grants
  expiry : summary.expiry = firstExpiry (grants.filterMap (·.expiry))
  covered : ∀ capability ∈ grants.flatMap (·.capabilities),
    ∀ resource ∈ resourcesForCheck (unionPrefixes grants),
      ∃ g ∈ grants, covers (leastRisk grants) capability resource g = true

theorem merged_of_ok (h : mergeUnion grants = .ok summary) : Merged grants summary := by
  simp only [mergeUnion, bind_eq_ok, rejectIf_eq_ok] at h
  obtain ⟨normalized, hnormalized, _, hcovered, h⟩ := h
  cases h
  have hsame := allSame_of_mapM hnormalized
  have hcapabilities : ∀ capability, capability ∈ normalized.flatMap (·.capabilities)
      ↔ capability ∈ grants.flatMap (·.capabilities) := by
    intro capability
    rw [List.mem_flatMap, List.mem_flatMap]
    constructor
    · intro hin
      obtain ⟨g', hg', hin⟩ := hin
      obtain ⟨g, hg, hsame⟩ := hsame.exists_left hg'
      exact ⟨g, hg, (hsame.capabilities capability).1 hin⟩
    · intro hin
      obtain ⟨g, hg, hin⟩ := hin
      obtain ⟨g', hg', hsame⟩ := hsame.exists_right hg
      exact ⟨g', hg', (hsame.capabilities capability).2 hin⟩
  constructor
  · intro capability
    rw [mem_union]
    exact hcapabilities capability
  · intro r
    exact hsame.mem_unionPrefixes_iff
  · exact hsame.leastRisk_eq
  · rw [← hsame.expiries_eq]
    show ((firstExpiry (normalized.filterMap (·.expiry))).map some).join = _
    cases firstExpiry (normalized.filterMap (·.expiry)) with
    | none => rfl
    | some limit => rfl
  · intro capability hcapability resource hresource
    by_contra hnone
    refine hcovered ⟨capability, mem_union.2 ((hcapabilities capability).2 hcapability), resource,
      hsame.mem_resourcesForCheck_iff.2 hresource, ?_⟩
    intro hany
    obtain ⟨g', hg', hcovers⟩ := List.any_eq_true.1 hany
    obtain ⟨g, hg, hsame'⟩ := hsame.exists_left hg'
    rw [hsame.leastRisk_eq] at hcovers
    exact hnone ⟨g, hg, hsame'.covers_eq.1 hcovers⟩

-- ===== soundness

theorem allows_of_covers {rule resource : String} {outer : Option String} {risk : ActionRisk}
    {time : Int} (hcovers : covers maxRisk rule outer g = true)
    (hcapability : matchesCapability capability rule = true)
    (hresource : ∀ o ∈ outer, withinPrefix resource o = true)
    (hrisk : riskOrder risk ≤ riskOrder maxRisk) (htime : ∀ e ∈ g.expiry, time < e.val) :
    Allows g capability resource risk time := by
  obtain ⟨hmax, ⟨rule', hrule', hmatch⟩, hplace⟩ := covers_iff.1 hcovers
  refine ⟨⟨rule', hrule', matchesCapability_trans hcapability hmatch⟩, ?_, hrisk.trans hmax, htime⟩
  rcases hplace with hnil | ⟨o, ho, outer', houter', hwithin⟩
  · exact .inl hnil
  · exact .inr ⟨outer', houter', withinPrefix_trans (hresource o ho) hwithin⟩

theorem exists_place (h : Merged grants summary) {resource : String}
    (hresource : summary.resourcePrefixes = []
      ∨ ∃ outer ∈ summary.resourcePrefixes, withinPrefix resource outer = true) :
    ∃ outer ∈ resourcesForCheck (unionPrefixes grants),
      ∀ o ∈ outer, withinPrefix resource o = true := by
  rcases hresource with hnil | ⟨outer, houter, hwithin⟩
  · refine ⟨none, mem_resourcesForCheck.2 (.inl ⟨?_, rfl⟩), fun o ho => (nomatch ho)⟩
    simp only [List.eq_nil_iff_forall_not_mem, h.resources] at hnil
    rwa [List.eq_nil_iff_forall_not_mem]
  · refine ⟨some outer, mem_resourcesForCheck.2 (.inr ⟨outer, (h.resources outer).1 houter, rfl⟩), ?_⟩
    intro o ho
    rw [← Option.some.inj ho]
    exact hwithin

theorem exists_resource_at (h : Merged grants summary) {outer : Option String}
    (houter : outer ∈ resourcesForCheck (unionPrefixes grants)) :
    ∃ resource, (summary.resourcePrefixes = []
        ∨ ∃ o ∈ summary.resourcePrefixes, withinPrefix resource o = true)
      ∧ ∀ g ∈ grants, (g.resourcePrefixes = []
          ∨ ∃ o ∈ g.resourcePrefixes, withinPrefix resource o = true) → g.resourcePrefixes = []
          ∨ ∃ r ∈ outer, ∃ o ∈ g.resourcePrefixes, withinPrefix r o = true := by
  rcases mem_resourcesForCheck.1 houter with ⟨hnil, rfl⟩ | ⟨r, hr, rfl⟩
  · obtain ⟨resource, hout⟩ := exists_resource_outside (grants.flatMap (·.resourcePrefixes))
    refine ⟨resource, .inl ?_, ?_⟩
    · simp only [List.eq_nil_iff_forall_not_mem, h.resources]
      rwa [List.eq_nil_iff_forall_not_mem] at hnil
    · intro g hg hplace
      rcases hplace with hnone | ⟨o, ho, hwithin⟩
      · exact .inl hnone
      · have hfalse := hout o (List.mem_flatMap.2 ⟨g, hg, ho⟩)
        rw [hwithin] at hfalse
        cases hfalse
  · refine ⟨r, .inr ⟨r, (h.resources r).2 hr, withinPrefix_self r⟩, ?_⟩
    intro g _ hplace
    rcases hplace with hnone | ⟨o, ho, hwithin⟩
    · exact .inl hnone
    · exact .inr ⟨r, rfl, o, ho, hwithin⟩

theorem Merged.sound_iff (hmerged : Merged grants summary) :
    (∀ capability resource risk time, Allows summary capability resource risk time →
        ∃ g ∈ grants, Allows g capability resource risk time) ↔ Lasting grants := by
  rw [lasting_iff]
  constructor
  · intro hsound limit hlimit capability hcapability outer houter
    obtain ⟨resource, hplace, honly⟩ := exists_resource_at hmerged houter
    have hexpiry : summary.expiry = some limit := hmerged.expiry.trans hlimit
    have hallows : Allows summary capability resource summary.maxRisk (limit.val - 1) := by
      refine ⟨⟨capability, (hmerged.capabilities capability).2 hcapability,
        matchesCapability_self capability⟩, hplace, le_refl _, ?_⟩
      intro e he
      rw [hexpiry, Option.mem_some_iff] at he
      rw [← he]
      omega
    obtain ⟨g, hg, hallowed⟩ := hsound _ _ _ _ hallows
    refine ⟨g, hg, covers_iff.2 ⟨?_, hallowed.capability, honly g hg hallowed.resource⟩, ?_⟩
    · rw [← hmerged.maxRisk]
      exact hallowed.risk
    · intro e he
      have hlt := hallowed.time e he
      omega
  · intro hlasting capability resource risk time hallows
    obtain ⟨rule, hrule, hmatch⟩ := hallows.capability
    obtain ⟨outer, houter, hwithin⟩ := exists_place hmerged hallows.resource
    have hrisk : riskOrder risk ≤ riskOrder (leastRisk grants) := by
      rw [← hmerged.maxRisk]
      exact hallows.risk
    have hrule := (hmerged.capabilities rule).1 hrule
    cases hlimit : firstExpiry (grants.filterMap (·.expiry)) with
    | some limit =>
      obtain ⟨g, hg, hcovers, hlasts⟩ := hlasting limit hlimit rule hrule outer houter
      have hbefore := hallows.time limit (hmerged.expiry.trans hlimit)
      refine ⟨g, hg, allows_of_covers hcovers hmatch hwithin hrisk ?_⟩
      intro e he
      have hle := hlasts e he
      omega
    | none =>
      obtain ⟨g, hg, hcovers⟩ := hmerged.covered rule hrule outer houter
      refine ⟨g, hg, allows_of_covers hcovers hmatch hwithin hrisk ?_⟩
      intro e he
      have hempty : grants.filterMap (·.expiry) = [] := by
        rw [firstExpiry, List.head?_eq_none_iff] at hlimit
        exact List.perm_nil.1 (hlimit ▸ (List.perm_insertionSort _ _).symm)
      have hmem : e ∈ grants.filterMap (·.expiry) := List.mem_filterMap.2 ⟨g, hg, he⟩
      rw [hempty] at hmem
      cases hmem

/-- What the summary allows, a grant of the list allows, exactly when the list is
lasting. -/
theorem mergeUnion_sound_iff (grants : List AuthorityGrant) (summary : AuthorityGrant)
    (h : mergeUnion grants = .ok summary) :
    (∀ capability resource risk time, Allows summary capability resource risk time →
        ∃ g ∈ grants, Allows g capability resource risk time) ↔ Lasting grants :=
  (merged_of_ok h).sound_iff

/-- A principal's effective grant is its sources flattened. -/
theorem effectiveGrant_sound_iff {principalId : String} {delegations : List Delegation}
    {root : RootAuthority} (h : effectiveGrant principalId delegations root = .ok summary) :
    ∃ sources, effectiveGrantSources principalId delegations root = .ok sources
      ∧ ((∀ capability resource risk time, Allows summary capability resource risk time →
          ∃ g ∈ sources, Allows g capability resource risk time) ↔ Lasting sources) := by
  rw [effectiveGrant] at h
  cases hsources : effectiveGrantSources principalId delegations root with
  | error e =>
    rw [hsources] at h
    cases h
  | ok sources =>
    rw [hsources] at h
    exact ⟨sources, rfl, (merged_of_ok h).sound_iff⟩

theorem lasting_of_earliest (h : mergeUnion grants = .ok summary)
    (hearliest : ∀ limit ∈ firstExpiry (grants.filterMap (·.expiry)),
      ∀ g ∈ grants, Outlives g limit) : Lasting grants := by
  rw [lasting_iff]
  intro limit hlimit capability hcapability resource hresource
  obtain ⟨g, hg, hcovers⟩ := (merged_of_ok h).covered capability hcapability resource hresource
  exact ⟨g, hg, hcovers, hearliest limit hlimit g hg⟩

-- ===== samples

/-- `2024-01-01T00:00:00.000Z`. -/
def year2024 : Instant := ⟨1704067200000, by decide⟩

/-- `+010000-01-01T00:00:00.000Z`. -/
def year10000 : Instant := ⟨253402300800000, by decide⟩

def endingGrant (capability : String) (expiry : Instant) : AuthorityGrant where
  capabilities := [capability]
  resourcePrefixes := ["/srv"]
  maxRisk := .write
  expiresAt := some (some expiry)

def endingGrants : List AuthorityGrant :=
  [endingGrant "file.read" year10000, endingGrant "file.write" year2024]

def endingSummary : AuthorityGrant where
  capabilities := ["file.read", "file.write"]
  resourcePrefixes := ["/srv"]
  maxRisk := .write
  expiresAt := some (some year10000)

theorem mergeUnion_ending : mergeUnion endingGrants = .ok endingSummary := by
  decide

/-- The summary allows writing after the only grant to write has ended. -/
theorem flattening_outlives_source : mergeUnion endingGrants = .ok endingSummary
    ∧ Allows endingSummary "file.write" "/srv" .write year2024.val
    ∧ ∀ g ∈ endingGrants, ¬ Allows g "file.write" "/srv" .write year2024.val := by
  refine ⟨mergeUnion_ending, ?_, ?_⟩
  · refine ⟨⟨"file.write", by simp [endingSummary], by decide⟩,
      .inr ⟨"/srv", List.mem_singleton_self _, by decide⟩, le_refl _, ?_⟩
    intro limit hlimit
    obtain rfl : year10000 = limit := Option.some.inj hlimit
    decide
  · intro g hg ha
    rcases List.mem_cons.1 hg with rfl | hg
    · obtain ⟨rule, hrule, hmatch⟩ := ha.capability
      rw [List.mem_singleton.1 hrule] at hmatch
      revert hmatch
      decide
    · obtain rfl := List.mem_singleton.1 hg
      have hlt := ha.time year2024 rfl
      exact lt_irrefl _ hlt

def sameEnd : List AuthorityGrant :=
  [endingGrant "file.read" year2024, endingGrant "file.write" year2024]

theorem mergeUnion_sameEnd : mergeUnion sameEnd
    = .ok { endingSummary with expiresAt := some (some year2024) } := by
  decide

/-- Two grants of one end. -/
theorem mergeUnion_sound_sample : ∃ g ∈ sameEnd, Allows g "file.write" "/srv" .write 0 := by
  have hallows : Allows { endingSummary with expiresAt := some (some year2024) }
      "file.write" "/srv" .write 0 := by
    refine ⟨⟨"file.write", by simp [endingSummary], by decide⟩,
      .inr ⟨"/srv", List.mem_singleton_self _, by decide⟩, le_refl _, ?_⟩
    intro limit hlimit
    obtain rfl : year2024 = limit := Option.some.inj hlimit
    decide
  refine (mergeUnion_sound_iff sameEnd _ mergeUnion_sameEnd).2
    (lasting_of_earliest mergeUnion_sameEnd ?_) _ _ _ _ hallows
  intro limit hlimit g hg e he
  have hfirst : firstExpiry (sameEnd.filterMap (·.expiry)) = some year2024 := by decide
  rw [hfirst, Option.mem_some_iff] at hlimit
  have hend : g.expiry = some year2024 := by
    rcases List.mem_cons.1 hg with rfl | hg
    · rfl
    · rw [List.mem_singleton.1 hg]
      rfl
  rw [hend, Option.mem_some_iff] at he
  rw [← hlimit, ← he]

end OperatorRuntime.Principals
