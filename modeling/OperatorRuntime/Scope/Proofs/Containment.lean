/-
The containment checks, on normalised absolute POSIX paths. All of them ask
whether the relative path starts with two dots, so they are exact but for a
path whose next name below the root begins with two dots (`Dotted`): it counts
as outside, where the checks permit and where they deny.
-/
import OperatorRuntime.Json
import OperatorRuntime.Lib.Passes
import OperatorRuntime.Policy.Enterprise
import OperatorRuntime.Scope.PathScope

namespace OperatorRuntime.Scope

open Lib

-- ===== paths

/-- A normalised absolute POSIX path, by its names. -/
structure PosixPath where
  segments : List (List Char)
  clean : ∀ s ∈ segments, CleanSegment s

def PosixPath.text (path : PosixPath) : String :=
  absoluteText path.segments

/-- The one lies in the other. -/
def Inside (child root : PosixPath) : Prop :=
  root.segments <+: child.segments

/-- The next name below the root begins with two dots. -/
def Dotted (child root : PosixPath) : Prop :=
  ∃ s rest, child.segments = root.segments ++ s :: rest ∧ ['.', '.'] <+: s

variable {cwd : String} {child root : PosixPath}

theorem posixSegments_text (cwd : String) (path : PosixPath) :
    posixSegments cwd path.text = path.segments := by
  have habsolute : ['/'].isPrefixOf path.text.toList = true := by
    simp [PosixPath.text, absoluteText]
  rw [posixSegments, if_pos habsolute, PosixPath.text, segmentsOf_absoluteText path.clean,
    normalizeSegments_eq path.clean]

theorem resolve_text (cwd : String) (path : PosixPath) : (posixOps cwd).resolve path.text = path.text := by
  show absoluteText (posixSegments cwd path.text) = _
  rw [posixSegments_text]
  rfl

theorem isWithin_text :
    (posixOps cwd).isWithin child.text root.text = true ↔ Inside child root ∧ ¬ Dotted child root := by
  rw [posix_isWithin_iff, posixSegments_text, posixSegments_text]
  constructor
  · intro h
    obtain ⟨rest, hrest, hhead⟩ := h
    refine ⟨⟨rest, hrest.symm⟩, ?_⟩
    intro hdotted
    obtain ⟨s, rest', hchild, hdots⟩ := hdotted
    have heq : rest = s :: rest' := List.append_cancel_left (hrest.symm.trans hchild)
    subst heq
    exact hhead s rfl hdots
  · intro h
    obtain ⟨⟨rest, hrest⟩, hnot⟩ := h
    refine ⟨rest, hrest.symm, ?_⟩
    intro s hs hdots
    cases rest with
    | nil => cases hs
    | cons t rest =>
      obtain rfl := Option.some.inj hs
      exact hnot ⟨t, rest, hrest.symm, hdots⟩

theorem Dotted.inside (h : Dotted child root) : Inside child root := by
  obtain ⟨s, rest, hchild, -⟩ := h
  exact ⟨s :: rest, hchild.symm⟩

theorem exact_iff {check : Bool} (h : check = true ↔ Inside child root ∧ ¬ Dotted child root) :
    (check = true ↔ Inside child root) ↔ ¬ Dotted child root := by
  rw [h]
  constructor
  · intro hexact hdotted
    exact (hexact.2 hdotted.inside).2 hdotted
  · intro hnot
    exact ⟨fun hboth => hboth.1, fun hinside => ⟨hinside, hnot⟩⟩

/-- The four checks on a pair of paths. -/
def checks (cwd : String) (child root : PosixPath) : List Bool :=
  [Policy.pathWithin (posix cwd) child.text root.text, lexicalInside (posixOps cwd) child.text root.text,
    isWithin (posixOps cwd) child.text root.text, (posix cwd).isWithin child.text root.text]

theorem mem_checks (cwd : String) {check : Bool} (h : check ∈ checks cwd child root) :
    check = true ↔ Inside child root ∧ ¬ Dotted child root := by
  have hops : (posix cwd).toPathOps = posixOps cwd := rfl
  have hpolicy : Policy.pathWithin (posix cwd) child.text root.text
      = (posixOps cwd).isWithin child.text root.text := by
    rw [Policy.pathWithin, hops, resolve_text]
  have hpostgres : isWithin (posixOps cwd) child.text root.text
      = (posixOps cwd).isWithin child.text root.text := by
    rw [isWithin, resolve_text, resolve_text]
  have hscope : lexicalInside (posixOps cwd) child.text root.text
      = (posixOps cwd).isWithin child.text root.text := by
    rw [lexicalInside]
  have hvalue : check = (posixOps cwd).isWithin child.text root.text := by
    simp only [checks, List.mem_cons, List.not_mem_nil, or_false] at h
    obtain h | h | h | h := h
    · exact h.trans hpolicy
    · exact h.trans hscope
    · exact h.trans hpostgres
    · rw [h, hops]
  rw [hvalue]
  exact isWithin_text

-- ===== the registry

/-- Every file has its own path for its real one. -/
def SymlinkFree (realpath : String → Option String) : Prop :=
  ∀ path real, realpath path = some real → real = path

variable {realpath : String → Option String} {registry : PosixPath} {roots : List PosixPath}

theorem realRoot_eq (h : SymlinkFree realpath) (root : String) : (realpath root).getD root = root := by
  cases hreal : realpath root with
  | none => rfl
  | some real => exact h root real hreal

theorem forM_checkRoot (cwd : String) (registry : PosixPath) (roots : List PosixPath)
    (hlinks : SymlinkFree realpath) : (roots.map PosixPath.text).forM
        (checkRoot (posixOps cwd) realpath registry.text registry.text) = .ok ()
      ↔ ∀ root ∈ roots, ¬ (Inside registry root ∧ ¬ Dotted registry root) := by
  have hone : ∀ root : PosixPath, isWithin (posixOps cwd) registry.text root.text = true
      ↔ Inside registry root ∧ ¬ Dotted registry root :=
    fun root => mem_checks cwd (by simp [checks])
  rw [forM_eq_ok, List.forall_mem_map]
  constructor
  · intro h root hroot hinside
    have hcheck := h root hroot
    rw [checkRoot, rejectIf_eq_ok] at hcheck
    exact hcheck (.inl ((hone root).2 hinside))
  · intro h root hroot
    rw [checkRoot, rejectIf_eq_ok, realRoot_eq hlinks, or_self]
    intro hwithin
    exact h root hroot ((hone root).1 hwithin)

/-- The registry file is refused whatever it holds. -/
def Refused (cwd : String) (realpath : String → Option String) (roots : List PosixPath)
    (registry : PosixPath) : Prop :=
  ∃ e, ∀ failure (load : Result Json),
    readRegistry (posixOps cwd) realpath failure (roots.map PosixPath.text) registry.text load = .error e

theorem refused_iff (hlinks : SymlinkFree realpath) (hexists : realpath registry.text = some registry.text) :
    Refused cwd realpath roots registry
    ↔ ∃ root ∈ roots, Inside registry root ∧ ¬ Dotted registry root := by
  have hread : ∀ failure (load : Result Json),
      readRegistry (posixOps cwd) realpath failure (roots.map PosixPath.text) registry.text load
        = (roots.map PosixPath.text).forM
            (checkRoot (posixOps cwd) realpath registry.text registry.text) >>= fun _ =>
              load >>= fun registry => pure (some registry) := by
    intro _ load
    unfold readRegistry
    rw [hexists]
  cases hchecks : (roots.map PosixPath.text).forM
      (checkRoot (posixOps cwd) realpath registry.text registry.text) with
  | ok _ =>
    have hnone := (forM_checkRoot _ _ _ hlinks).1 hchecks
    constructor
    · intro hrefused
      obtain ⟨e, hrefused⟩ := hrefused
      have hok := hrefused none (.ok .null)
      rw [hread, hchecks] at hok
      cases hok
    · intro h
      obtain ⟨root, hroot, hinside⟩ := h
      exact absurd hinside (hnone root hroot)
  | error e =>
    constructor
    · intro _
      by_contra hnone
      push Not at hnone
      have hok := (forM_checkRoot cwd registry roots hlinks).2
        fun root hroot hboth => hboth.2 (hnone root hroot hboth.1)
      rw [hchecks] at hok
      cases hok
    · intro _
      refine ⟨e, fun _ load => ?_⟩
      rw [hread, hchecks]
      rfl

/-- Each check tells whether the one path lies in the other unless the next name
is dotted, and a registry inside a root is refused unless it is dotted below
every root it lies in. -/
theorem containment_exact (cwd : String) :
    (∀ child root : PosixPath, ∀ check ∈ checks cwd child root,
        (check = true ↔ Inside child root) ↔ ¬ Dotted child root)
      ∧ ∀ (realpath : String → Option String) (registry : PosixPath) (roots : List PosixPath),
        SymlinkFree realpath → realpath registry.text = some registry.text →
        (Refused cwd realpath roots registry
          ↔ ∃ root ∈ roots, Inside registry root ∧ ¬ Dotted registry root) :=
  ⟨fun _ _ _ hcheck => exact_iff (mem_checks _ hcheck), fun _ _ _ hlinks hexists => refused_iff hlinks hexists⟩

-- ===== samples

def segments (names : List String) : List (List Char) :=
  names.map String.toList

def cleanSegment (s : List Char) : Bool :=
  s != [] && s != ['.'] && s != ['.', '.'] && !s.contains '/'

theorem clean_of_all {names : List String} (h : (segments names).all cleanSegment = true) :
    ∀ s ∈ segments names, CleanSegment s := by
  intro s hs
  have hs := List.all_eq_true.1 h s hs
  simpa [cleanSegment, CleanSegment, and_assoc] using hs

/-- `/srv/app`. -/
def sampleRoot : PosixPath := ⟨segments ["srv", "app"], clean_of_all (by decide)⟩

/-- `/srv/app/..pg/profiles.json`. -/
def dottedRegistry : PosixPath :=
  ⟨segments ["srv", "app", "..pg", "profiles.json"], clean_of_all (by decide)⟩

/-- `/srv/app/pg/profiles.json`. -/
def plainRegistry : PosixPath :=
  ⟨segments ["srv", "app", "pg", "profiles.json"], clean_of_all (by decide)⟩

theorem dotted_sample : Dotted dottedRegistry sampleRoot :=
  ⟨"..pg".toList, ["profiles.json".toList], rfl, by decide⟩

theorem not_dotted_sample : ¬ Dotted plainRegistry sampleRoot := by
  intro h
  obtain ⟨s, rest, hsegments, hdots⟩ := h
  have hs : s = "pg".toList := by
    have hdrop := congrArg (List.drop 2) hsegments
    exact (List.cons.inj hdrop).1.symm
  rw [hs] at hdots
  revert hdots
  decide

theorem symlinkFree_some : SymlinkFree some :=
  fun _ _ h => (Option.some.inj h).symm

/-- A registry in a plain directory is refused. -/
theorem containment_exact_sample : Refused "/" some [sampleRoot] plainRegistry :=
  ((containment_exact "/").2 some plainRegistry [sampleRoot] symlinkFree_some rfl).2
    ⟨sampleRoot, List.mem_singleton_self _, ⟨segments ["pg", "profiles.json"], rfl⟩, not_dotted_sample⟩

/-- A path inside the root is taken to be outside, and a registry there is let
through. -/
theorem dotted_path_outside : Inside dottedRegistry sampleRoot
    ∧ (∀ check ∈ checks "/" dottedRegistry sampleRoot, check = false)
    ∧ ∀ failure registry, readRegistry (posixOps "/") some failure [sampleRoot.text]
        dottedRegistry.text (.ok registry) = .ok (some (registry : Json)) := by
  have hfalse : ∀ check ∈ checks "/" dottedRegistry sampleRoot, check = false := by
    intro check hcheck
    rw [Bool.eq_false_iff]
    intro h
    exact ((mem_checks _ hcheck).1 h).2 dotted_sample
  have hpass : ([sampleRoot].map PosixPath.text).forM
      (checkRoot (posixOps "/") some dottedRegistry.text dottedRegistry.text) = .ok () := by
    refine (forM_checkRoot _ _ _ symlinkFree_some).2 ?_
    intro root hroot hboth
    rw [List.mem_singleton.1 hroot] at hboth
    exact hboth.2 dotted_sample
  refine ⟨dotted_sample.inside, hfalse, ?_⟩
  intro _ registry
  unfold readRegistry
  show ([sampleRoot].map PosixPath.text).forM
    (checkRoot (posixOps "/") some dottedRegistry.text dottedRegistry.text) >>= _ = _
  rw [hpass]
  rfl

end OperatorRuntime.Scope
