/-
File paths, as a path library computes with them: a text is resolved to
an absolute path, and the way from one path to another is a relative
text. `Paths` is what a containment check of the usual form (the relative
text does not start with `..`) needs of such a library; `posix` is the
POSIX one, on lists of segments.
-/
import Mathlib.Data.List.Basic

namespace OperatorRuntime.Lib

/-- The operations of a path library, at a fixed working directory. -/
structure PathOps where
  resolve : String → String
  relative : String → String → String
  isAbsolute : String → Bool

/-- The containment check: the relative path from `parent` to `child`
neither climbs nor starts anew. -/
def PathOps.isWithin (ops : PathOps) (child parent : String) : Bool :=
  let rel := ops.relative parent child
  rel == "" || (! ['.', '.'].isPrefixOf rel.toList && !ops.isAbsolute rel)

/-- A path library whose containment check can be chained. -/
structure Paths extends PathOps where
  resolve_resolve : ∀ text, resolve (resolve text) = resolve text
  isWithin_trans : ∀ {a b c}, toPathOps.isWithin a b = true →
    toPathOps.isWithin b c = true → toPathOps.isWithin a c = true

-- ===== segments

/-- A name between two slashes that stands for itself. -/
def CleanSegment (segment : List Char) : Prop :=
  segment ≠ [] ∧ segment ≠ ['.'] ∧ segment ≠ ['.', '.'] ∧ '/' ∉ segment

/-- The names of a path text; empty ones and `.` say nothing. -/
def segmentsOf (text : List Char) : List (List Char) :=
  (text.splitOn '/').filter fun s => s ≠ [] ∧ s ≠ ['.']

/-- `..` takes the last name away. -/
def normalizeSegments (segments : List (List Char)) : List (List Char) :=
  segments.foldl (fun kept s => if s = ['.', '.'] then kept.dropLast else kept ++ [s]) []

def absoluteText (segments : List (List Char)) : String :=
  String.ofList ('/' :: ['/'].intercalate segments)

def afterCommon : List (List Char) → List (List Char) → List (List Char) × List (List Char)
  | a :: as, b :: bs => if a = b then afterCommon as bs else (a :: as, b :: bs)
  | as, bs => (as, bs)

section
variable {segments : List (List Char)}

theorem slash_not_mem_of_mem_splitOn {text segment : List Char}
    (h : segment ∈ text.splitOn '/') : '/' ∉ segment := by
  induction text generalizing segment with
  | nil =>
    rw [List.mem_singleton.1 h]
    exact List.not_mem_nil
  | cons c text ih =>
    rw [List.splitOn_cons_eq_if_modifyHead] at h
    split at h
    · rcases List.mem_cons.1 h with rfl | h
      · exact List.not_mem_nil
      · exact ih h
    · next hc =>
      cases hsplit : text.splitOn '/' with
      | nil => exact absurd hsplit (List.splitOn_ne_nil _ _)
      | cons first rest =>
        rw [hsplit, List.modifyHead_cons] at h
        rw [hsplit] at ih
        rcases List.mem_cons.1 h with rfl | h
        · intro hin
          rcases List.mem_cons.1 hin with rfl | hin
          · exact hc rfl
          · exact ih (List.mem_cons_self ..) hin
        · exact ih (List.mem_cons_of_mem _ h)

theorem normalizeSegments_clean (h : ∀ s ∈ segments, s ≠ [] ∧ s ≠ ['.'] ∧ '/' ∉ s) :
    ∀ s ∈ normalizeSegments segments, CleanSegment s := by
  have hgo : ∀ kept : List (List Char), (∀ s ∈ kept, CleanSegment s) → ∀ s ∈ segments.foldl
        (fun kept s => if s = ['.', '.'] then kept.dropLast else kept ++ [s]) kept,
        CleanSegment s := by
    induction segments with
    | nil =>
      intro kept hkept
      exact hkept
    | cons a segments ih =>
      intro kept hkept
      rw [List.foldl_cons]
      refine ih (fun s hs => h s (List.mem_cons_of_mem _ hs)) _ ?_
      obtain ⟨hne, hdot, hslash⟩ := h a (List.mem_cons_self ..)
      split
      · intro s hs
        exact hkept s (List.dropLast_subset _ hs)
      · next hup =>
        intro s hs
        rcases List.mem_append.1 hs with hs | hs
        · exact hkept s hs
        · rw [List.mem_singleton.1 hs]
          exact ⟨hne, hdot, hup, hslash⟩
  exact hgo [] (fun s hs => absurd hs List.not_mem_nil)

theorem normalizeSegments_eq (h : ∀ s ∈ segments, CleanSegment s) :
    normalizeSegments segments = segments := by
  have hgo : ∀ kept : List (List Char), segments.foldl
      (fun kept s => if s = ['.', '.'] then kept.dropLast else kept ++ [s]) kept
        = kept ++ segments := by
    induction segments with
    | nil =>
      intro kept
      exact (List.append_nil kept).symm
    | cons a segments ih =>
      intro kept
      rw [List.foldl_cons, if_neg (h a (List.mem_cons_self ..)).2.2.1,
        ih fun s hs => h s (List.mem_cons_of_mem _ hs), List.append_assoc]
      rfl
  exact hgo []

theorem segmentsOf_absoluteText (h : ∀ s ∈ segments, CleanSegment s) :
    segmentsOf (absoluteText segments).toList = segments := by
  have hsplit : ('/' :: ['/'].intercalate segments).splitOn '/'
      = [] :: (['/'].intercalate segments).splitOn '/' :=
    List.splitOn_append_cons_self_of_not_mem (show '/' ∉ [] from List.not_mem_nil) _
  have hkeep : ∀ s ∈ segments, decide (s ≠ [] ∧ s ≠ ['.']) = true :=
    fun s hs => decide_eq_true ⟨(h s hs).1, (h s hs).2.1⟩
  rw [absoluteText, String.toList_ofList, segmentsOf, hsplit, List.filter_cons_of_neg (by simp)]
  cases segments with
  | nil => rfl
  | cons a rest =>
    rw [List.splitOn_intercalate _ (fun s hs => (h s hs).2.2.2) (List.cons_ne_nil _ _)]
    exact List.filter_eq_self.2 hkeep

theorem afterCommon_nil_left {as bs rest : List (List Char)} :
    afterCommon as bs = ([], rest) ↔ bs = as ++ rest := by
  induction as generalizing bs with
  | nil =>
    cases bs with
    | nil => simp [afterCommon]
    | cons b bs => simp [afterCommon]
  | cons a as ih =>
    cases bs with
    | nil => simp [afterCommon]
    | cons b bs =>
      rw [afterCommon, List.cons_append]
      split
      · next heq =>
        rw [ih, heq, List.cons.injEq]
        simp
      · next hne =>
        constructor
        · intro h
          cases h
        · intro h
          exact absurd (List.cons.inj h).1.symm hne

end

-- ===== POSIX

/-- The names of the path a text resolves to from the directory `cwd`. -/
def posixSegments (cwd text : String) : List (List Char) :=
  normalizeSegments (segmentsOf (if ['/'].isPrefixOf text.toList then text.toList
     else cwd.toList ++ '/' :: text.toList))

/-- The steps of the relative path: up to the common directory, then
down. -/
def posixSteps (cwd source target : String) : List (List Char) :=
  let (up, down) := afterCommon (posixSegments cwd source) (posixSegments cwd target)
  List.replicate up.length ['.', '.'] ++ down

/-- `path.posix` of Node.js. -/
def posixOps (cwd : String) : PathOps where
  resolve text := absoluteText (posixSegments cwd text)
  relative source target := String.ofList (['/'].intercalate (posixSteps cwd source target))
  isAbsolute text := ['/'].isPrefixOf text.toList

section
variable (cwd : String)

theorem posixSegments_clean (text : String) : ∀ s ∈ posixSegments cwd text, CleanSegment s := by
  refine normalizeSegments_clean ?_
  intro s hs
  obtain ⟨hsplit, hkeep⟩ := List.mem_filter.1 hs
  have hkeep := of_decide_eq_true hkeep
  exact ⟨hkeep.1, hkeep.2, slash_not_mem_of_mem_splitOn hsplit⟩

theorem posixSegments_resolve (text : String) :
    posixSegments cwd ((posixOps cwd).resolve text) = posixSegments cwd text := by
  have hclean := posixSegments_clean cwd text
  have habsolute : ['/'].isPrefixOf ((posixOps cwd).resolve text).toList = true := by
    simp [posixOps, absoluteText]
  rw [posixSegments, if_pos habsolute]
  show normalizeSegments (segmentsOf (absoluteText (posixSegments cwd text)).toList) = _
  rw [segmentsOf_absoluteText hclean, normalizeSegments_eq hclean]

theorem intercalate_cons_slash (s : List Char) (segments : List (List Char)) :
    ∃ t, ['/'].intercalate (s :: segments) = s ++ t := by
  cases segments with
  | nil => exact ⟨[], by simp [List.intercalate]⟩
  | cons a segments =>
    refine ⟨'/' :: ['/'].intercalate (a :: segments), ?_⟩
    rw [List.intercalate_cons_of_ne_nil (List.cons_ne_nil _ _)]
    simp

theorem climbs_iff {s : List Char} (hs : CleanSegment s) (t : List Char) :
    ['.', '.'].isPrefixOf (s ++ t) = true ↔ ['.', '.'] <+: s := by
  obtain ⟨hne, hdot, -, -⟩ := hs
  rw [List.isPrefixOf_iff_prefix]
  match s with
  | [] => exact absurd rfl hne
  | [c] =>
    have hc : c ≠ '.' := fun h => hdot (by rw [h])
    simp [List.cons_prefix_cons, Ne.symm hc]
  | c :: d :: s => simp [List.cons_prefix_cons]

/-- A path is within another one exactly when its names continue the
other's, with a name that does not begin like `..`. -/
theorem posix_isWithin_iff (child parent : String) : (posixOps cwd).isWithin child parent = true
    ↔ ∃ rest, posixSegments cwd child = posixSegments cwd parent ++ rest
        ∧ ∀ s ∈ rest.head?, ¬ ['.', '.'] <+: s := by
  have hclean := posixSegments_clean cwd child
  obtain ⟨up, down, hcommon⟩ : ∃ up down, afterCommon (posixSegments cwd parent)
      (posixSegments cwd child) = (up, down) := ⟨_, _, rfl⟩
  have hrel : ((posixOps cwd).relative parent child).toList
      = ['/'].intercalate (List.replicate up.length ['.', '.'] ++ down) := by
    simp [posixOps, posixSteps, hcommon]
  cases up with
  | nil =>
    have happend := afterCommon_nil_left.1 hcommon
    have hrest : ∀ rest, posixSegments cwd child = posixSegments cwd parent ++ rest
        → rest = down := by
      intro rest h
      exact List.append_cancel_left (h.symm.trans happend)
    have hiff : (∃ rest, posixSegments cwd child = posixSegments cwd parent ++ rest
          ∧ ∀ s ∈ rest.head?, ¬ ['.', '.'] <+: s)
        ↔ ∀ s ∈ down.head?, ¬ ['.', '.'] <+: s := by
      constructor
      · intro h
        obtain ⟨rest, h, hhead⟩ := h
        rwa [hrest rest h] at hhead
      · intro h
        exact ⟨down, happend, h⟩
    rw [hiff]
    cases down with
    | nil =>
      have hempty : (posixOps cwd).relative parent child = "" :=
        String.toList_injective (by rw [hrel]; rfl)
      simp [PathOps.isWithin, hempty]
    | cons s down =>
      have hs : CleanSegment s :=
        hclean s (happend ▸ List.mem_append_right _ (List.mem_cons_self ..))
      obtain ⟨t, hjoin⟩ := intercalate_cons_slash s down
      rw [List.length_nil, List.replicate_zero, List.nil_append, hjoin] at hrel
      have hne : (posixOps cwd).relative parent child ≠ "" := by
        intro h
        rw [h] at hrel
        exact hs.1 (List.append_eq_nil_iff.1 hrel.symm).1
      have habsolute : ['/'].isPrefixOf (s ++ t) = false := by
        cases s with
        | nil => exact absurd rfl hs.1
        | cons c s =>
          have hc : ('/' == c) = false :=
            beq_false_of_ne fun h => hs.2.2.2 (h ▸ List.mem_cons_self ..)
          rw [List.cons_append, List.isPrefixOf_cons_cons, hc, Bool.false_and]
      simp only [PathOps.isWithin, posixOps] at hrel hne ⊢
      simp only [hrel, habsolute, Bool.or_eq_true, beq_iff_eq, hne, false_or,
        Bool.not_false, Bool.and_true, Bool.not_eq_true', List.head?_cons,
        Option.mem_some_iff, forall_eq']
      rw [← climbs_iff hs t, Bool.not_eq_true]
  | cons u up =>
    obtain ⟨t, hjoin⟩ := intercalate_cons_slash ['.', '.']
      (List.replicate up.length ['.', '.'] ++ down)
    rw [List.length_cons, List.replicate_succ, List.cons_append, hjoin] at hrel
    have hout : (posixOps cwd).isWithin child parent = false := by
      have hne : (posixOps cwd).relative parent child ≠ "" := by
        intro h
        rw [h] at hrel
        cases hrel
      simp only [PathOps.isWithin, hrel]
      simp [hne]
    rw [hout]
    constructor
    · intro h
      cases h
    · intro h
      obtain ⟨rest, h, -⟩ := h
      rw [afterCommon_nil_left.2 h] at hcommon
      cases hcommon

theorem posix_isWithin_trans {a b c : String} (hab : (posixOps cwd).isWithin a b = true)
    (hbc : (posixOps cwd).isWithin b c = true) : (posixOps cwd).isWithin a c = true := by
  rw [posix_isWithin_iff] at hab hbc ⊢
  obtain ⟨down, hab, hdown⟩ := hab
  obtain ⟨mid, hbc, hmid⟩ := hbc
  refine ⟨mid ++ down, by rw [hab, hbc, List.append_assoc], ?_⟩
  cases mid with
  | nil => exact hdown
  | cons s mid => exact hmid

def posix : Paths where
  toPathOps := posixOps cwd
  resolve_resolve := by
    intro text
    show absoluteText _ = absoluteText _
    rw [posixSegments_resolve]
  isWithin_trans := posix_isWithin_trans cwd

end

end OperatorRuntime.Lib
