/-
Which resource keys conflict, read off their segments, and why it may be
asked of the canonical keys instead of the ones an action names: a key
that a wildcard replaces conflicts with nothing the wildcard does not.
-/
import OperatorRuntime.Journal.ActionTransitionJournal
import OperatorRuntime.Lib.Paths

namespace OperatorRuntime.Journal

variable {key left right literal : String}

-- ===== literals

theorem after?_eq_some {cs rest : List Char} :
    after? literal cs = some rest ↔ cs = literal.toList ++ rest := by
  unfold after?
  split
  · next h =>
    obtain ⟨t, rfl⟩ := List.isPrefixOf_iff_prefix.1 h
    simp
  · next h =>
    constructor
    · intro hnone
      cases hnone
    · rintro rfl
      exact absurd (List.isPrefixOf_iff_prefix.2 (List.prefix_append _ _)) h

theorem startsWith_iff : startsWith key literal = true ↔ literal.toList <+: key.toList := by
  rw [startsWith, Option.isSome_iff_exists]
  constructor
  · rintro ⟨rest, h⟩
    exact ⟨rest, (after?_eq_some.1 h).symm⟩
  · rintro ⟨rest, h⟩
    exact ⟨rest, after?_eq_some.2 h.symm⟩

theorem prefix_or_prefix_of_startsWith {p q : String} (hp : startsWith key p = true)
    (hq : startsWith key q = true) : p.toList <+: q.toList ∨ q.toList <+: p.toList :=
  List.prefix_or_prefix_of_prefix (startsWith_iff.1 hp) (startsWith_iff.1 hq)

-- ===== legacy keys

theorem startsWith_of_legacyBrowserKey? {groups : String × String × Option String}
    (h : legacyBrowserKey? key = some groups) : startsWith key "browser:session:" = true := by
  have hfirst : ∀ session segments, key.toList.splitOn '/' = session :: segments →
      (segmentValue? "browser:session:" session).isSome = true →
      startsWith key "browser:session:" = true := by
    intro session segments hsplit hvalue
    obtain ⟨t, ht⟩ := Lib.intercalate_cons_slash session segments
    rw [← hsplit, List.intercalate_splitOn] at ht
    rw [startsWith_iff, ht]
    unfold segmentValue? at hvalue
    split at hvalue
    · cases hvalue
    · cases hvalue
    · next value _ hafter =>
      rw [after?_eq_some.1 hafter, List.append_assoc]
      exact List.prefix_append _ _
  unfold legacyBrowserKey? at h
  split at h
  · next session target hsplit =>
    obtain ⟨value, hvalue, -⟩ := Option.bind_eq_some_iff.1 h
    exact hfirst session _ hsplit (Option.isSome_of_eq_some hvalue)
  · next session target frame hsplit =>
    obtain ⟨value, hvalue, -⟩ := Option.bind_eq_some_iff.1 h
    exact hfirst session _ hsplit (Option.isSome_of_eq_some hvalue)
  · cases h

theorem normalizeLegacyResourceKey_of_startsWith {p : String} (h : startsWith key p = true)
    (hworkspace : ¬ (p.toList <+: "workspace:".toList ∨ "workspace:".toList <+: p.toList))
    (hsession : ¬ (p.toList <+: "browser:session:".toList
      ∨ "browser:session:".toList <+: p.toList)) : normalizeLegacyResourceKey key = key := by
  rw [normalizeLegacyResourceKey,
    if_neg fun hstarts => hworkspace (prefix_or_prefix_of_startsWith h hstarts)]
  cases hlegacy : legacyBrowserKey? key with
  | none => rfl
  | some groups =>
    have hstarts := startsWith_of_legacyBrowserKey? hlegacy
    exact absurd (prefix_or_prefix_of_startsWith h hstarts) hsession

theorem normalizeLegacyResourceKey_idem (key : String) :
    normalizeLegacyResourceKey (normalizeLegacyResourceKey key)
    = normalizeLegacyResourceKey key := by
  by_cases hworkspace : startsWith key "workspace:" = true
  · have hany : normalizeLegacyResourceKey key = "filesystem:any" := by
      rw [normalizeLegacyResourceKey, if_pos hworkspace]
    rw [hany]
    decide
  cases hlegacy : legacyBrowserKey? key with
  | none =>
    have hself : normalizeLegacyResourceKey key = key := by
      rw [normalizeLegacyResourceKey, if_neg hworkspace, hlegacy]
    rw [hself, hself]
  | some groups =>
    refine normalizeLegacyResourceKey_of_startsWith (p := "browser:instance:") ?_ (by decide)
      (by decide)
    obtain ⟨instance', target, frame⟩ := groups
    have htargets : "browser:instance:".toList <+: ("browser:instance:" ++ instance').toList := by
      rw [String.toList_append]
      exact List.prefix_append _ _
    have hlonger : ∀ {s : String}, "browser:instance:".toList <+: s.toList →
        ∀ t, "browser:instance:".toList <+: (s ++ t).toList := by
      intro s hs t
      rw [String.toList_append]
      exact hs.trans (List.prefix_append _ _)
    rw [normalizeLegacyResourceKey, if_neg hworkspace, hlegacy, startsWith_iff]
    dsimp only
    split
    · exact hlonger htargets _
    cases frame with
    | none => exact hlonger (hlonger (hlonger htargets _) _) _
    | some frame =>
      exact hlonger (hlonger (hlonger (hlonger (hlonger htargets _) _) _) _) _

-- ===== segments

/-- A rest without the slash it may end in. -/
def stem (rest : List Char) : List Char :=
  if ['/'].isSuffixOf rest then rest.dropLast else rest

theorem isHierarchyPrefixOf_eq (parent child : List Char) :
    isHierarchyPrefixOf parent child = (stem parent ++ ['/']).isPrefixOf child := by
  unfold isHierarchyPrefixOf stem
  split
  · next h =>
    obtain ⟨t, rfl⟩ := List.isSuffixOf_iff_suffix.1 h
    rw [List.dropLast_concat]
  · rfl

theorem intercalate_append {xs : List (List Char)} (hne : xs ≠ []) (y : List Char)
    (ys : List (List Char)) : ['/'].intercalate (xs ++ y :: ys)
    = ['/'].intercalate xs ++ '/' :: ['/'].intercalate (y :: ys) := by
  induction xs with
  | nil => exact absurd rfl hne
  | cons x xs ih =>
    cases xs with
    | nil => simp
    | cons x' xs =>
      rw [List.cons_append, List.cons_append, List.intercalate_cons_cons, ← List.cons_append,
        ih (List.cons_ne_nil _ _), List.intercalate_cons_cons]
      simp only [List.append_assoc]

theorem slash_prefix_iff (a b : List Char) :
    a ++ ['/'] <+: b ↔ a.splitOn '/' <+: b.splitOn '/' ∧ a ≠ b := by
  constructor
  · rintro ⟨t, rfl⟩
    rw [List.append_assoc, List.singleton_append, List.splitOn_append_cons_self]
    refine ⟨List.prefix_append _ _, ?_⟩
    intro h
    simpa using congrArg List.length h
  · rintro ⟨⟨segments, hsegments⟩, hne⟩
    have hb : b = ['/'].intercalate (a.splitOn '/' ++ segments) := by
      rw [hsegments, List.intercalate_splitOn]
    cases segments with
    | nil =>
      rw [List.append_nil, List.intercalate_splitOn] at hb
      exact absurd hb.symm hne
    | cons s segments =>
      refine ⟨['/'].intercalate (s :: segments), ?_⟩
      rw [hb, intercalate_append (List.splitOn_ne_nil _ _), List.intercalate_splitOn]
      simp

/-- A path strictly inside a directory: the segments of the directory come
first. -/
def Inside (parent child : List Char) : Prop :=
  (stem parent).splitOn '/' <+: child.splitOn '/' ∧ stem parent ≠ child

theorem isHierarchyPrefixOf_iff {parent child : List Char} :
    isHierarchyPrefixOf parent child = true ↔ Inside parent child := by
  rw [isHierarchyPrefixOf_eq, List.isPrefixOf_iff_prefix, slash_prefix_iff, Inside]

-- ===== conflict

theorem hierarchyConflict_eq {literals : List String} {a b : List Char}
    (hliteral : literal ∈ literals) (hleft : left.toList = literal.toList ++ a)
    (hright : right.toList = literal.toList ++ b)
    (honly : ∀ q ∈ literals, startsWith left q = true → q = literal) :
    hierarchyConflict left right literals
    = (isHierarchyPrefixOf a b || isHierarchyPrefixOf b a) := by
  induction literals with
  | nil => cases hliteral
  | cons q rest ih =>
    unfold hierarchyConflict
    by_cases hq : q = literal
    · rw [hq, after?_eq_some.2 hleft, after?_eq_some.2 hright]
    · have hnone : after? q left.toList = none := by
        rw [Option.eq_none_iff_forall_ne_some]
        intro t ht
        exact hq (honly q (List.mem_cons_self ..) (Option.isSome_of_eq_some ht))
      rw [hnone]
      refine ih ((List.mem_cons.1 hliteral).resolve_left fun h => hq h.symm) ?_
      exact fun p hp => honly p (List.mem_cons_of_mem _ hp)

theorem prefix_of_hierarchyConflict {literals : List String}
    (h : hierarchyConflict left right literals = true) :
    ∃ q ∈ literals, startsWith left q = true ∧ startsWith right q = true := by
  induction literals with
  | nil => cases h
  | cons q rest ih =>
    unfold hierarchyConflict at h
    split at h
    · next a b ha hb =>
      exact ⟨q, List.mem_cons_self .., Option.isSome_of_eq_some ha, Option.isSome_of_eq_some hb⟩
    · obtain ⟨p, hp, hstarts⟩ := ih h
      exact ⟨p, List.mem_cons_of_mem _ hp, hstarts⟩

theorem normalizedKeysConflict_iff {a b : List Char} (hliteral : literal ∈ hierarchicalPrefixes)
    (hleft : left.toList = literal.toList ++ a) (hright : right.toList = literal.toList ++ b) :
    normalizedKeysConflict left right = true ↔ a = b ∨ Inside a b ∨ Inside b a := by
  have hsame : left = right ↔ a = b := by
    rw [← String.toList_inj, hleft, hright, List.append_cancel_left_eq]
  have hany : ∀ {key : String} {c : List Char}, key.toList = literal.toList ++ c →
      (key == "filesystem:any") = false := by
    intro key c hkey
    rw [beq_eq_false_iff_ne]
    rintro rfl
    have hnone : ∀ p ∈ hierarchicalPrefixes, ¬ p.toList <+: "filesystem:any".toList := by decide
    exact hnone literal hliteral ⟨c, hkey.symm⟩
  have honly : ∀ q ∈ hierarchicalPrefixes, startsWith left q = true → q = literal := by
    intro q hq hstarts
    have hapart : ∀ p ∈ hierarchicalPrefixes, ∀ q ∈ hierarchicalPrefixes,
        p.toList <+: q.toList ∨ q.toList <+: p.toList → p = q := by decide
    exact hapart q hq literal hliteral
      (prefix_or_prefix_of_startsWith hstarts (startsWith_iff.2 ⟨a, hleft.symm⟩))
  rw [normalizedKeysConflict, hany hleft, hany hright, hierarchyConflict_eq hliteral hleft hright honly]
  simp only [Bool.false_and, Bool.or_false, Bool.or_eq_true, beq_iff_eq, hsame,
    isHierarchyPrefixOf_iff]

theorem isFilesystemResource_of_conflict (h : normalizedKeysConflict left right = true)
    (hright : isFilesystemResource right = true) : isFilesystemResource left = true := by
  simp only [normalizedKeysConflict, Bool.or_eq_true, Bool.and_eq_true, beq_iff_eq] at h
  rcases h with ((rfl | ⟨rfl, -⟩) | ⟨-, hleft⟩) | h
  · exact hright
  · decide
  · exact hleft
  obtain ⟨q, hq, hstarts, hrights⟩ := prefix_of_hierarchyConflict h
  have hother : ∀ p ∈ ["browser:", "database:", "process:", "desktop:"],
      ∀ r ∈ ["filesystem:any", "fs-path:", "fs-object:", "file:", "repo:", "workspace:"],
      ¬ (p.toList <+: r.toList ∨ r.toList <+: p.toList) := by decide
  have hkind : ∃ r ∈ ["filesystem:any", "fs-path:", "fs-object:", "file:", "repo:", "workspace:"],
      startsWith right r = true := by
    rw [isFilesystemResource, Bool.or_eq_true, beq_iff_eq, List.any_eq_true] at hright
    rcases hright with rfl | ⟨r, hr, hstart⟩
    · exact ⟨_, List.mem_cons_self .., by decide⟩
    · exact ⟨r, List.mem_cons_of_mem _ hr, hstart⟩
  rcases List.mem_cons.1 hq with rfl | hq
  · simp [isFilesystemResource, hstarts]
  · obtain ⟨r, hr, hstart⟩ := hkind
    exact absurd (prefix_or_prefix_of_startsWith hrights hstart) (hother q hq r hr)

-- ===== canonical keys

variable {keys : List String}

theorem mem_canonicalResourceKeys : key ∈ canonicalResourceKeys keys
    ↔ key ∈ keys.map normalizeLegacyResourceKey
    ∧ ("filesystem:any" ∈ keys.map normalizeLegacyResourceKey →
      isFilesystemResource key = true → key = "filesystem:any") := by
  simp only [canonicalResourceKeys, List.mem_insertionSort, List.contains_iff_mem,
    List.mem_eraseDups]
  split
  · next hany =>
    rw [List.mem_cons, List.mem_filter, List.mem_eraseDups, Bool.not_eq_true']
    constructor
    · rintro (rfl | ⟨hkey, hkind⟩)
      · exact ⟨hany, fun _ _ => rfl⟩
      · refine ⟨hkey, fun _ h => ?_⟩
        rw [hkind] at h
        cases h
    · rintro ⟨hkey, hkind⟩
      cases hfiles : isFilesystemResource key with
      | true => exact .inl (hkind hany hfiles)
      | false => exact .inr ⟨hkey, rfl⟩
  · next hany =>
    rw [List.mem_eraseDups]
    exact ⟨fun hkey => ⟨hkey, fun h => absurd h hany⟩, And.left⟩

/-- Conflict is reflexive and symmetric; under one prefix it means that a
path is another or lies inside it; and canonical keys conflict with what the
keys they stand for conflict with. -/
theorem resourceKeysConflict_laws (key left right : String) (keys : List String) :
    resourceKeysConflict key key = true
    ∧ resourceKeysConflict left right = resourceKeysConflict right left
    ∧ (∀ literal ∈ hierarchicalPrefixes, ∀ a b : List Char,
      (normalizeLegacyResourceKey left).toList = literal.toList ++ a →
      (normalizeLegacyResourceKey right).toList = literal.toList ++ b →
      (resourceKeysConflict left right = true ↔ a = b ∨ Inside a b ∨ Inside b a))
    ∧ ((∃ other ∈ keys, resourceKeysConflict key other = true)
      ↔ ∃ other ∈ canonicalResourceKeys keys, resourceKeysConflict key other = true) := by
  refine ⟨?_, resourceKeysConflict_comm left right, ?_, ?_⟩
  · simp [resourceKeysConflict, normalizedKeysConflict]
  · intro literal hliteral a b hleft hright
    exact normalizedKeysConflict_iff hliteral hleft hright
  constructor
  · rintro ⟨other, hother, hconflict⟩
    have hin : normalizeLegacyResourceKey other ∈ keys.map normalizeLegacyResourceKey :=
      List.mem_map_of_mem hother
    by_cases hdropped : "filesystem:any" ∈ keys.map normalizeLegacyResourceKey
        ∧ isFilesystemResource (normalizeLegacyResourceKey other) = true
    · obtain ⟨hany, hkind⟩ := hdropped
      refine ⟨_, mem_canonicalResourceKeys.2 ⟨hany, fun _ _ => rfl⟩, ?_⟩
      have hself : normalizeLegacyResourceKey "filesystem:any" = "filesystem:any" := by decide
      rw [resourceKeysConflict, hself]
      simp [normalizedKeysConflict, isFilesystemResource_of_conflict hconflict hkind]
    · refine ⟨_, mem_canonicalResourceKeys.2 ⟨hin, fun hany hkind => ?_⟩, ?_⟩
      · exact absurd ⟨hany, hkind⟩ hdropped
      · rw [resourceKeysConflict, normalizeLegacyResourceKey_idem]
        exact hconflict
  · rintro ⟨other, hother, hconflict⟩
    obtain ⟨source, hsource, rfl⟩ := List.mem_map.1 (mem_canonicalResourceKeys.1 hother).1
    rw [resourceKeysConflict, normalizeLegacyResourceKey_idem] at hconflict
    exact ⟨source, hsource, hconflict⟩

/-- A directory with a slash at its end conflicts with what is inside it, and
neither has the segments of the other first. -/
theorem slash_conflicts : resourceKeysConflict "fs-path:/" "fs-path:/a" = true
    ∧ ¬ "/".toList.splitOn '/' <+: "/a".toList.splitOn '/'
    ∧ ¬ "/a".toList.splitOn '/' <+: "/".toList.splitOn '/' := by
  decide

end OperatorRuntime.Journal
