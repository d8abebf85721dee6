/-
`physicalPathIdentity` of `core/resource-identity.ts` on a POSIX file system
without symbolic links, where a file name is well-formed text. The names that
exist are taken as they are and the ones that do not are escaped, so a name
can change its text when it is made.
-/
import Mathlib.Data.List.DropRight
import OperatorRuntime.Journal.Proofs.ResourceKeys

namespace OperatorRuntime.Journal

open Lib (CleanSegment absoluteText posixSegments posixSegments_clean)

-- ===== file system

structure Stat where
  directory : Bool
  dev : Nat
  ino : Nat

abbrev Names := List (List Char)

/-- What stands under the names from the root. -/
structure Tree where
  stat : Names → Option Stat
  root : (stat []).isSome
  below : ∀ path name, (stat (path ++ [name])).isSome → ∃ s ∈ stat path, s.directory = true

inductive PathError | enoent | enotdir

/-- `fs.realpath` and `fs.stat` of what it answers. -/
def Tree.realpath (tree : Tree) (path : Names) : Except PathError Stat :=
  match tree.stat path with
  | some s => .ok s
  | none =>
    if path.inits.any fun p => (tree.stat p).any (!·.directory) then .error .enotdir
    else .error .enoent

-- ===== keys

/-- The characters `encodeURIComponent` leaves alone. -/
def isUnescaped (c : Char) : Bool :=
  c.isAlphanum || ['-', '_', '.', '!', '~', '*', '\'', '(', ')'].contains c

def percentByte (b : UInt8) : List Char :=
  ['%', (Json.hexDigit (b.toNat / 16)).toUpper, (Json.hexDigit (b.toNat % 16)).toUpper]

/-- The text `%2F` comes from a slash alone, and is replaced. -/
def escapeCharacter (c : Char) : List Char :=
  if isUnescaped c then [c]
  else if c = '/' then "%252F".toList
  else (String.utf8EncodeChar c).flatMap percentByte

def escapeSegment (name : List Char) : List Char :=
  name.flatMap escapeCharacter

def slashed (c : Char) : Char :=
  if c = '\\' then '/' else c

/-- The path is resolved already. -/
def normalizePhysicalPath (path : Names) : List Char :=
  ((absoluteText path).toList.map slashed).rdropWhile (· = '/')

structure PhysicalIdentity where
  pathKey : String
  objectKey : Option String

def pathKeyOf (canonical : List Char) : String :=
  "fs-path:" ++ String.ofList canonical

def suffixOf (missing : Names) : List Char :=
  missing.flatMap fun name => '/' :: escapeSegment name

/-- One turn of the loop for each name of `probe`, last name first. -/
def identityFrom (tree : Tree) (requested : Names) :
    (probe missing : Names) → Except PathError PhysicalIdentity
  | probe, missing =>
    match tree.realpath probe.reverse with
    | .ok s => .ok
        { pathKey := pathKeyOf (normalizePhysicalPath probe.reverse ++ suffixOf missing)
          objectKey := if missing = [] then
            some ("fs-object:" ++ toString s.dev ++ ":" ++ toString s.ino) else none }
    | .error .enotdir => .error .enotdir
    | .error .enoent =>
      match probe with
      | [] => .ok ⟨pathKeyOf (normalizePhysicalPath requested), none⟩
      | name :: parent => identityFrom tree requested parent (name :: missing)

/-- `cwd` is the working directory. -/
def physicalPathIdentity (tree : Tree) (cwd input : String) : Except PathError PhysicalIdentity :=
  identityFrom tree (posixSegments cwd input) (posixSegments cwd input).reverse []

-- ===== what exists

/-- How many names of the path exist. -/
def Tree.depth (tree : Tree) (path : Names) : Nat :=
  Nat.findGreatest (fun n => (tree.stat (path.take n)).isSome) path.length

variable {tree before after : Tree} {path : Names} {id id' : PhysicalIdentity}

theorem identityFrom_eq {requested probe missing : Names} (hpath : path = probe.reverse ++ missing)
    (hmissing : ∀ n, probe.length < n → n ≤ path.length → tree.stat (path.take n) = none)
    (h : identityFrom tree requested probe missing = .ok id) :
    id.pathKey = pathKeyOf (normalizePhysicalPath (path.take (tree.depth path))
      ++ suffixOf (path.drop (tree.depth path))) := by
  have hfound : ∀ {probe missing : Names} {s : Stat}, path = probe.reverse ++ missing →
      (∀ n, probe.length < n → n ≤ path.length → tree.stat (path.take n) = none) →
      tree.stat probe.reverse = some s → tree.depth path = probe.length := by
    intro probe missing s hpath hmissing hstat
    refine Nat.findGreatest_eq_iff.2 ⟨by simp [hpath], fun _ => ?_, fun n hn hle => ?_⟩
    · rw [hpath, ← List.length_reverse, List.take_left, hstat]
      rfl
    · rw [hmissing n hn hle]
      exact Bool.false_ne_true
  induction probe generalizing missing with
  | nil =>
    obtain ⟨s, hstat⟩ := Option.isSome_iff_exists.1 tree.root
    unfold identityFrom at h
    rw [Tree.realpath, List.reverse_nil, hstat] at h
    cases h
    rw [hfound hpath hmissing hstat, hpath]
    rfl
  | cons name parent ih =>
    unfold identityFrom at h
    cases hstat : tree.stat (name :: parent).reverse with
    | some s =>
      rw [Tree.realpath, hstat] at h
      cases h
      rw [hfound hpath hmissing hstat, hpath, ← List.length_reverse, List.take_left,
        List.drop_left]
    | none =>
      rw [Tree.realpath, hstat] at h
      dsimp only at h
      split at h
      · next herror => split at herror <;> cases herror
      · cases h
      · refine ih (by simp [hpath]) (fun n hn hle => ?_) h
        obtain rfl | hn := eq_or_lt_of_le (Nat.succ_le_of_lt hn)
        · have htake : path.take (name :: parent).length = (name :: parent).reverse := by
            rw [hpath, ← List.length_reverse, List.take_left]
          rw [← hstat, ← htake, List.length_cons]
        · exact hmissing n hn hle

theorem pathKey_eq {cwd input : String} (h : physicalPathIdentity tree cwd input = .ok id) :
    id.pathKey = pathKeyOf
      (normalizePhysicalPath ((posixSegments cwd input).take (tree.depth (posixSegments cwd input)))
        ++ suffixOf ((posixSegments cwd input).drop (tree.depth (posixSegments cwd input)))) := by
  refine identityFrom_eq (by simp) (fun n hn hle => ?_) h
  rw [List.length_reverse] at hn
  omega

-- ===== texts

/-- The names as they stand in the key of what exists. -/
def textOf (names : Names) : List Char :=
  names.flatMap fun name => '/' :: name.map slashed

variable {name : List Char} {old new names : Names}

theorem normalizePhysicalPath_eq (path : Names) :
    normalizePhysicalPath path = (textOf path).rdropWhile (· = '/') := by
  have htext : ∀ name names, ('/' :: ['/'].intercalate (name :: names)).map slashed
      = textOf (name :: names) := by
    intro name names
    induction names generalizing name with
    | nil => simp [textOf, slashed]
    | cons next names ih =>
      rw [List.intercalate_cons_cons, textOf, List.flatMap_cons, ← textOf, ← ih]
      simp [slashed]
  cases path with
  | nil => decide
  | cons name names =>
    rw [normalizePhysicalPath, absoluteText, String.toList_ofList, htext]

theorem escapeCharacter_cases (c : Char) : isUnescaped c = true ∧ escapeCharacter c = [c]
    ∨ ∃ d rest, escapeCharacter c = '%' :: d :: rest := by
  unfold escapeCharacter
  split
  · next h => exact .inl ⟨h, rfl⟩
  · refine .inr ?_
    split
    · exact ⟨_, _, rfl⟩
    · cases hbytes : String.utf8EncodeChar c with
      | nil => exact absurd hbytes (by simp)
      | cons b bytes => exact ⟨_, _, rfl⟩

theorem length_le_escapeSegment (name : List Char) : name.length ≤ (escapeSegment name).length
    ∧ ((escapeSegment name).length ≤ name.length → ∀ c ∈ name, isUnescaped c = true) := by
  induction name with
  | nil => simp
  | cons c name ih =>
    rw [escapeSegment, List.flatMap_cons, ← escapeSegment, List.length_append, List.length_cons,
      List.forall_mem_cons]
    rcases escapeCharacter_cases c with ⟨hc, h⟩ | ⟨d, rest, h⟩
    · rw [h, List.length_singleton]
      exact ⟨by omega, fun hle => ⟨hc, ih.2 (by omega)⟩⟩
    · rw [h]
      simp only [List.length_cons]
      exact ⟨by omega, fun hle => by omega⟩

/-- A name is left alone when none of its characters is escaped. -/
theorem escapeSegment_eq_iff : escapeSegment name = name ↔ ∀ c ∈ name, isUnescaped c = true := by
  constructor
  · intro h
    exact (length_le_escapeSegment name).2 (by rw [h])
  · intro h
    rw [escapeSegment, List.flatMap_congr fun c hc => show escapeCharacter c = [c] by
      rw [escapeCharacter, if_pos (h c hc)], List.flatMap_singleton']

theorem map_slashed (h : escapeSegment name = name) : name.map slashed = name := by
  refine (List.map_congr_left fun c hc => ?_).trans (List.map_id name)
  rw [slashed, if_neg]
  · rfl
  · rintro rfl
    exact absurd (escapeSegment_eq_iff.1 h _ hc) (by decide)

theorem suffixOf_eq (h : ∀ name ∈ names, escapeSegment name = name) :
    suffixOf names = textOf names :=
  List.flatMap_congr fun name hin => by rw [h name hin, map_slashed (h name hin)]

theorem length_textOf_le (names : Names) : (textOf names).length ≤ (suffixOf names).length
    ∧ ((suffixOf names).length ≤ (textOf names).length →
      ∀ name ∈ names, escapeSegment name = name) := by
  induction names with
  | nil => simp [textOf]
  | cons name names ih =>
    obtain ⟨hle, hplain⟩ := length_le_escapeSegment name
    rw [textOf, suffixOf, List.flatMap_cons, List.flatMap_cons, ← textOf, ← suffixOf,
      List.forall_mem_cons]
    simp only [List.length_append, List.length_cons, List.length_map]
    exact ⟨by omega, fun hshort =>
      ⟨escapeSegment_eq_iff.2 (hplain (by omega)), ih.2 (by omega)⟩⟩

theorem textOf_append (old new : Names) : textOf (old ++ new) = textOf old ++ textOf new :=
  List.flatMap_append

theorem trim_textOf_iff (hclean : ∀ name ∈ names, CleanSegment name) :
    (textOf names).rdropWhile (· = '/') = textOf names
    ↔ ∀ name ∈ names.getLast?, name.getLast? ≠ some '\\' := by
  obtain rfl | ⟨first, last, rfl⟩ := List.eq_nil_or_concat' names
  · simp [textOf]
  obtain ⟨hne, -, -, hslash⟩ := hclean last (by simp)
  obtain rfl | ⟨s, c, rfl⟩ := List.eq_nil_or_concat' last
  · exact absurd rfl hne
  have htext : textOf (first ++ [s ++ [c]])
      = (textOf first ++ '/' :: s.map slashed) ++ [slashed c] := by
    simp [textOf]
  have hlast : slashed c = '/' ↔ c = '\\' := by
    rw [slashed]
    split
    · next h => simp [h]
    · next h => exact ⟨fun hc => absurd (by simp [hc]) hslash, fun hc => absurd hc h⟩
  simp only [htext, List.rdropWhile_concat, List.getLast?_concat, Option.mem_some_iff,
    forall_eq', decide_eq_true_eq, hlast, ne_eq, Option.some.injEq]
  split
  · next h =>
    refine ⟨fun heq => ?_, fun hc => absurd h hc⟩
    have hlength := (List.rdropWhile_prefix (p := (· = '/'))
      (textOf first ++ '/' :: s.map slashed)).length_le
    rw [heq] at hlength
    simp only [List.length_append, List.length_cons, List.length_nil] at hlength
    omega
  · next h => exact ⟨fun _ => h, fun _ => rfl⟩

theorem head_escapeSegment (hclean : CleanSegment name) :
    ∃ d rest, escapeSegment name = d :: rest ∧ d ≠ '/' := by
  cases name with
  | nil => exact absurd rfl hclean.1
  | cons c name =>
    rw [escapeSegment, List.flatMap_cons]
    rcases escapeCharacter_cases c with ⟨hc, h⟩ | ⟨d, rest, h⟩
    · refine ⟨c, _, by rw [h]; rfl, ?_⟩
      rintro rfl
      exact absurd hc (by decide)
    · exact ⟨'%', _, by rw [h]; rfl, by decide⟩

theorem getLast?_ne_backslash (h : escapeSegment name = name) : name.getLast? ≠ some '\\' := by
  intro hlast
  exact absurd (escapeSegment_eq_iff.1 h _ (List.mem_of_getLast? hlast)) (by decide)

theorem trim_append_suffixOf_iff (hold : ∀ name ∈ old, CleanSegment name)
    (hnew : ∀ name ∈ new, CleanSegment name) (hne : new ≠ []) :
    (textOf old).rdropWhile (· = '/') ++ suffixOf new = (textOf (old ++ new)).rdropWhile (· = '/')
    ↔ (∀ name ∈ new, escapeSegment name = name)
      ∧ ∀ name ∈ old.getLast?, name.getLast? ≠ some '\\' := by
  constructor
  · intro heq
    rw [← trim_textOf_iff hold]
    have hprefix : (textOf old).rdropWhile (· = '/') ++ suffixOf new
        <+: textOf old ++ textOf new := by
      rw [heq, textOf_append]
      exact List.rdropWhile_prefix ..
    have hself : (textOf old).rdropWhile (· = '/') = textOf old := by
      have hsplit : (textOf old).rdropWhile (· = '/') ++ (textOf old).rtakeWhile (· = '/')
          = textOf old := List.rdropWhile_append_rtakeWhile
      cases hslashes : (textOf old).rtakeWhile (· = '/') with
      | nil => rwa [hslashes, List.append_nil] at hsplit
      | cons c slashes =>
        -- a slash stands where the escaped name has its first character
        have hin : suffixOf new <+: c :: slashes ++ textOf new := by
          rwa [← hslashes, ← List.prefix_append_right_inj, ← List.append_assoc, hsplit]
        have hsecond : ∃ t, slashes ++ textOf new = '/' :: t := by
          cases slashes with
          | nil =>
            obtain ⟨name, rest, rfl⟩ := List.exists_cons_of_ne_nil hne
            exact ⟨_, rfl⟩
          | cons d slashes =>
            have hd : d ∈ (textOf old).rtakeWhile (· = '/') := by simp [hslashes]
            have hslash : d = '/' := by simpa using List.mem_rtakeWhile_imp hd
            exact ⟨_, by rw [hslash]; rfl⟩
        obtain ⟨t, ht⟩ := hsecond
        obtain ⟨name, rest, rfl⟩ := List.exists_cons_of_ne_nil hne
        obtain ⟨d, escaped, hescaped, hd⟩ := head_escapeSegment (hnew name (by simp))
        rw [suffixOf, List.flatMap_cons, hescaped, List.cons_append, List.cons_append (a := c),
          ht] at hin
        exact absurd (List.cons_prefix_cons.1 (List.cons_prefix_cons.1 hin).2).1 hd
    rw [hself, List.prefix_append_right_inj] at hprefix
    exact ⟨(length_textOf_le new).2 hprefix.length_le, hself⟩
  · rintro ⟨hplain, hlast⟩
    rw [(trim_textOf_iff hold).2 hlast, suffixOf_eq hplain, ← textOf_append, eq_comm,
      trim_textOf_iff (List.forall_mem_append.2 ⟨hold, hnew⟩), List.getLast?_append_of_ne_nil _ hne]
    exact fun name hname => getLast?_ne_backslash (hplain name (List.mem_of_getLast? hname))

theorem pathKeyOf_inj {a b : List Char} : pathKeyOf a = pathKeyOf b ↔ a = b := by
  rw [← String.toList_inj]
  simp [pathKeyOf]

theorem normalizeLegacyResourceKey_pathKeyOf (canonical : List Char) :
    normalizeLegacyResourceKey (pathKeyOf canonical) = pathKeyOf canonical :=
  normalizeLegacyResourceKey_of_startsWith (p := "fs-path:")
    (startsWith_iff.2 ⟨canonical, by simp [pathKeyOf]⟩) (by decide) (by decide)

theorem resourceKeysConflict_below {x t : List Char} (hx : x.rdropWhile (· = '/') = x)
    (ht : t = [] ∨ ∃ u, t = '/' :: u) :
    resourceKeysConflict (pathKeyOf x) (pathKeyOf (x ++ t)) = true := by
  have hliteral : "fs-path:" ∈ hierarchicalPrefixes := by decide
  rw [resourceKeysConflict, normalizeLegacyResourceKey_pathKeyOf,
    normalizeLegacyResourceKey_pathKeyOf, normalizedKeysConflict_iff (a := x) (b := x ++ t) hliteral
      (by simp [pathKeyOf]) (by simp [pathKeyOf])]
  obtain rfl | ⟨u, rfl⟩ := ht
  · exact .inl (List.append_nil x).symm
  have hstem : stem x = x := by
    rw [stem, if_neg]
    rw [List.isSuffixOf_iff_suffix]
    rintro ⟨y, rfl⟩
    rw [List.rdropWhile_concat_pos _ _ _ (by decide)] at hx
    have hle := (List.rdropWhile_prefix (· = '/') y).length_le
    rw [hx, List.length_append, List.length_singleton] at hle
    omega
  refine .inr (.inl ?_)
  rw [Inside, ← slash_prefix_iff, hstem]
  exact ⟨u, by simp⟩

-- ===== creation

/-- `after` is `before` with names of the path made. -/
structure Created (before after : Tree) (path : Names) : Prop where
  kept : ∀ p, (before.stat p).isSome → after.stat p = before.stat p
  made : ∀ p, before.stat p = none → (after.stat p).isSome → p <+: path

theorem Tree.depth_exists (tree : Tree) (path : Names) :
    (tree.stat (path.take (tree.depth path))).isSome = true :=
  Nat.findGreatest_spec (P := fun n => (tree.stat (path.take n)).isSome = true) (Nat.zero_le _)
    tree.root

theorem Tree.le_depth {n : Nat} (hle : n ≤ path.length) (h : (tree.stat (path.take n)).isSome) :
    n ≤ tree.depth path :=
  Nat.le_findGreatest hle h

theorem Created.depth_le (h : Created before after path) :
    before.depth path ≤ after.depth path := by
  refine Tree.le_depth (Nat.findGreatest_le _) ?_
  rw [h.kept _ (before.depth_exists path)]
  exact before.depth_exists path

/-- Escaping leaves the names alone that were made, and the name before them
does not end in a backslash. -/
def LeftAlone (before after : Tree) (path : Names) : Prop :=
  (∀ name ∈ (path.take (after.depth path)).drop (before.depth path), escapeSegment name = name)
    ∧ ∀ name ∈ (path.take (before.depth path)).getLast?, name.getLast? ≠ some '\\'

theorem leftAlone_iff {before after : Tree} {path : Names} : LeftAlone before after path
    ↔ (∀ name ∈ (path.take (after.depth path)).drop (before.depth path),
        ∀ c ∈ name, isUnescaped c = true)
      ∧ ∀ name ∈ (path.take (before.depth path)).getLast?, name.getLast? ≠ some '\\' := by
  simp only [LeftAlone, escapeSegment_eq_iff]

theorem trim_textOf_append (hself : (textOf old).rdropWhile (· = '/') = textOf old) (new : Names) :
    ∃ t, (textOf (old ++ new)).rdropWhile (· = '/') = textOf old ++ t
    ∧ (t = [] ∨ ∃ u, t = '/' :: u) := by
  refine ⟨(textOf new).rdropWhile (· = '/'), ?_, ?_⟩
  · rw [textOf_append, List.rdropWhile, List.reverse_append, List.dropWhile_append]
    split
    · next h =>
      rw [← List.rdropWhile, hself, List.rdropWhile, List.isEmpty_iff.1 h]
      exact (List.append_nil _).symm
    · rw [List.reverse_append, List.reverse_reverse, List.rdropWhile]
  · obtain ⟨slashes, h⟩ := List.rdropWhile_prefix (· = '/') (textOf new)
    cases ht : (textOf new).rdropWhile (· = '/') with
    | nil => exact .inl rfl
    | cons c t =>
      rw [ht] at h
      cases new with
      | nil => cases h
      | cons name new => exact .inr ⟨t, congrArg (· :: t) (List.cons.inj h).1⟩

theorem suffixOf_head (missing : Names) :
    suffixOf missing = [] ∨ ∃ u, suffixOf missing = '/' :: u := by
  cases missing with
  | nil => exact .inl rfl
  | cons name missing => exact .inr ⟨_, rfl⟩

theorem conflict_inside {later : Tree} {cwd inside : String} {rest : Names}
    (hself : (textOf path).rdropWhile (· = '/') = textOf path)
    (hexists : later.depth path = path.length) (hinside : posixSegments cwd inside = path ++ rest)
    (h : physicalPathIdentity later cwd inside = .ok id) :
    resourceKeysConflict (pathKeyOf (textOf path)) id.pathKey = true := by
  have hdepth : path.length ≤ later.depth (path ++ rest) := by
    refine Tree.le_depth (by simp) ?_
    rw [List.take_left]
    have hpath := later.depth_exists path
    rwa [hexists, List.take_length] at hpath
  rw [pathKey_eq h, hinside, normalizePhysicalPath_eq, List.take_append, List.drop_append,
    List.take_of_length_le hdepth, List.drop_eq_nil_of_le hdepth, List.nil_append]
  obtain ⟨t, ht, hhead⟩ := trim_textOf_append hself
    (rest.take (later.depth (path ++ rest) - path.length))
  rw [ht, List.append_assoc]
  refine resourceKeysConflict_below hself ?_
  obtain rfl | ⟨u, rfl⟩ := hhead
  · exact suffixOf_head _
  · exact .inr ⟨_, rfl⟩

/-- Creating a path keeps its key, and the key conflicts with all that is
inside it later, if and only if the names that were made are left alone. -/
theorem physicalPathIdentity_stable_iff {cwd input : String}
    (hpath : posixSegments cwd input = path) (hcreated : Created before after path)
    (h : physicalPathIdentity before cwd input = .ok id)
    (h' : physicalPathIdentity after cwd input = .ok id') : (id.pathKey = id'.pathKey
      ∧ (before.depth path < path.length → after.depth path = path.length →
        ∀ later inside inner rest, later.depth path = path.length →
          posixSegments cwd inside = path ++ rest →
          physicalPathIdentity later cwd inside = .ok inner →
          resourceKeysConflict id.pathKey inner.pathKey = true))
      ↔ after.depth path = before.depth path ∨ LeftAlone before after path := by
  have hclean : ∀ name ∈ path, CleanSegment name := hpath ▸ posixSegments_clean cwd input
  have hkey := pathKey_eq h
  have hkey' := pathKey_eq h'
  rw [hpath, normalizePhysicalPath_eq] at hkey hkey'
  obtain heq | hlt := eq_or_lt_of_le hcreated.depth_le
  · rw [hkey, hkey', ← heq]
    exact ⟨fun _ => .inl rfl, fun _ => ⟨rfl, fun hmissing hall => by omega⟩⟩
  have hle : after.depth path ≤ path.length := Nat.findGreatest_le _
  have htake : path.take (after.depth path) = path.take (before.depth path)
      ++ (path.take (after.depth path)).drop (before.depth path) := by
    have hinit : (path.take (after.depth path)).take (before.depth path)
        = path.take (before.depth path) := by rw [List.take_take, Nat.min_eq_left hlt.le]
    rw [← hinit, List.take_append_drop]
  have hdrop : path.drop (before.depth path)
      = (path.take (after.depth path)).drop (before.depth path)
        ++ path.drop (after.depth path) := by
    rw [← List.drop_append_of_le_length (by rw [List.length_take]; omega), List.take_append_drop]
  have hne : (path.take (after.depth path)).drop (before.depth path) ≠ [] := by
    refine List.ne_nil_of_length_pos ?_
    rw [List.length_drop, List.length_take]
    omega
  have hiff := @trim_append_suffixOf_iff (path.take (before.depth path)) _
    (fun name hin => hclean name (List.mem_of_mem_take hin))
    (fun name hin => hclean name (List.mem_of_mem_take (List.mem_of_mem_drop hin))) hne
  have hsame : id.pathKey = id'.pathKey ↔ LeftAlone before after path := by
    rw [LeftAlone, ← hiff, ← htake, hkey, hkey', pathKeyOf_inj, hdrop, suffixOf,
      List.flatMap_append, ← List.append_assoc, ← suffixOf, ← suffixOf, List.append_cancel_right_eq]
  rw [hsame]
  refine ⟨fun hall => .inr hall.1, fun hor => ?_⟩
  have halone := hor.resolve_left (by omega)
  refine ⟨halone, fun _ hall later inside inner rest hexists hinside hinner => ?_⟩
  rw [hall, List.take_length] at htake
  have hself : (textOf path).rdropWhile (· = '/') = textOf path := by
    rw [trim_textOf_iff hclean, htake,
      List.getLast?_append_of_ne_nil _ (by rwa [hall, List.take_length] at hne)]
    exact fun name hname => getLast?_ne_backslash
      (halone.1 name (by rw [hall, List.take_length]; exact List.mem_of_getLast? hname))
  rw [hsame.2 halone, hkey', hall, List.take_length, List.drop_length, hself, suffixOf,
    List.flatMap_nil, List.append_nil]
  exact conflict_inside hself hexists hinside hinner

/-- The root directory, and a directory in it when a name is given. -/
def rootWith (child : Option (List Char)) : Tree where
  stat
    | [] => some ⟨true, 1, 2⟩
    | [name] => if child = some name then some ⟨true, 1, 3⟩ else none
    | _ => none
  root := rfl
  below := by
    intro path name h
    cases path with
    | nil => exact ⟨_, rfl, rfl⟩
    | cons first rest =>
      cases rest with
      | nil => cases h
      | cons second rest => cases h

theorem created_rootWith (name : List Char) :
    Created (rootWith none) (rootWith (some name)) [name] := by
  refine ⟨fun p h => ?_, fun p hnone h => ?_⟩
  · cases p with
    | nil => rfl
    | cons first rest =>
      cases rest with
      | nil => cases h
      | cons second rest => cases h
  · cases p with
    | nil => exact List.nil_prefix
    | cons first rest =>
      cases rest with
      | nil =>
        have hname : name = first := by
          by_contra hne
          simp [rootWith, hne] at h
        exact hname ▸ List.prefix_rfl
      | cons second rest => cases h

/-- A path keeps its key when it comes to be. -/
theorem physicalPathIdentity_stable_plain : ∃ id id',
    physicalPathIdentity (rootWith none) "/" "/a" = .ok id
    ∧ physicalPathIdentity (rootWith (some ['a'])) "/" "/a" = .ok id'
    ∧ id.pathKey = id'.pathKey := by
  have hpath : posixSegments "/" "/a" = [['a']] := by decide
  exact ⟨_, _, rfl, rfl, ((physicalPathIdentity_stable_iff hpath (created_rootWith ['a'])
    rfl rfl).2 (.inr ⟨by decide, by decide⟩)).1⟩

/-- A space is escaped until the directory is made. -/
theorem spaced_key_changes : ∃ before after id id', Created before after (posixSegments "/" "/a b")
    ∧ physicalPathIdentity before "/" "/a b" = .ok id
    ∧ physicalPathIdentity after "/" "/a b" = .ok id'
    ∧ id.pathKey ≠ id'.pathKey ∧ resourceKeysConflict id.pathKey id'.pathKey = false := by
  have hpath : posixSegments "/" "/a b" = [['a', ' ', 'b']] := by decide
  rw [hpath]
  exact ⟨_, _, ⟨"fs-path:/a%20b", none⟩, ⟨"fs-path:/a b", some "fs-object:1:3"⟩,
    created_rootWith ['a', ' ', 'b'], rfl, rfl, by decide, by decide⟩

end OperatorRuntime.Journal
