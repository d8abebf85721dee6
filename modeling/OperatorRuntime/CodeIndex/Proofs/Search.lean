/-
What `searchText` answers for files as they were indexed. Its three loops are a
walk along the lines of all files; each takes the occurrences of its part until
the limit is met. `truncated` is computed from where that happens, not from
whether anything follows: on the last line of the last file it is false, whatever
the line still holds (`searchText_exact`).
-/
import OperatorRuntime.CodeIndex.WorkspaceCodeIndex

namespace OperatorRuntime.CodeIndex

open Lib

variable {search : Search} {hits : List CodeSearchHit}

-- ===== occurrences

structure SourceLine where
  path : String
  index : Nat
  line : Units

def lineHits (search : Search) (at' : SourceLine) : List CodeSearchHit :=
  (occurrences search.needle (search.fold at'.line)).map
    (search.hit at'.path at'.index at'.line)

def linesHits (search : Search) (lines : List SourceLine) : List CodeSearchHit :=
  lines.flatMap (lineHits search)

def sourceLines (path : String) (index : Nat) : List Units → List SourceLine
  | [] => []
  | line :: lines => ⟨path, index, line⟩ :: sourceLines path (index + 1) lines

def filesLines (text : CodeIndexFile → String) (files : List CodeIndexFile) : List SourceLine :=
  files.flatMap fun file => sourceLines file.path 0 (splitLines (Units.ofString (text file)))

-- ===== lines

/-- One line yields its hits, up to the limit. -/
theorem searchLine_eq {path : String} {index : Nat} {line : Units} {last : Bool} {fuel start : Nat}
    (hfuel : (search.fold line).length + 1 ≤ fuel + start) (hroom : hits.length < search.limit) :
    searchLine search path index line last fuel start (hits, false)
    = ((hits ++ (occurrencesFrom search.needle (search.fold line) fuel start).map
          (search.hit path index line)).take search.limit,
      decide (search.limit ≤ (hits ++ (occurrencesFrom search.needle (search.fold line) fuel
        start).map (search.hit path index line)).length) && !last) := by
  induction fuel generalizing start hits with
  | zero =>
    rw [searchLine, occurrencesFrom, List.map_nil, List.append_nil,
      List.take_of_length_le (by omega), decide_eq_false (by omega)]
    rfl
  | succ fuel ih =>
    have hstop : hits.take search.limit = hits := List.take_of_length_le (by omega)
    rw [searchLine, occurrencesFrom]
    dsimp only
    by_cases hstart : start ≤ (search.fold line).length
    · rw [if_pos hstart]
      cases hindex : indexFrom search.needle (search.fold line) start with
      | none =>
        rw [List.map_nil, List.append_nil, hstop, decide_eq_false (by omega)]
        rfl
      | some found =>
        obtain ⟨hle, -, -⟩ := indexFrom_eq_some hindex
        have hone : (hits ++ [search.hit path index line found]).length = hits.length + 1 :=
          List.length_append
        rw [List.map_cons, ← List.singleton_append, ← List.append_assoc]
        dsimp only
        by_cases hfull : search.limit ≤ (hits ++ [search.hit path index line found]).length
        · rw [if_pos hfull, List.take_append_of_le_length hfull,
            List.take_of_length_le (by omega), decide_eq_true (by
              rw [List.length_append]
              omega)]
          rfl
        · rw [if_neg hfull]
          have hmax : 1 ≤ max search.needle.length 1 := Nat.le_max_right ..
          exact ih (by omega) (by omega)
    · rw [if_neg hstart]
      have hnone : indexFrom search.needle (search.fold line) start = none := by
        refine indexFrom_eq_none.2 fun p hp hocc => ?_
        have hbound := hocc.1
        omega
      rw [hnone, List.map_nil, List.append_nil, hstop, decide_eq_false (by omega)]
      rfl

/-- The hits known for certain to lie before the end: all, but for the last line of
the last file. -/
def before (lastFile : Bool) (lines : List SourceLine) : List SourceLine :=
  if lastFile = true then lines.dropLast else lines

theorem before_cons {lastFile : Bool} {first second : SourceLine} {lines : List SourceLine} :
    before lastFile (first :: second :: lines) = first :: before lastFile (second :: lines) := by
  unfold before
  split
  · rfl
  · rfl

/-- The lines yield theirs in order. -/
theorem searchLines_eq (path : String) (lastFile : Bool) (index : Nat) (lines : List Units)
    (hroom : hits.length < search.limit) :
    searchLines search path lastFile index lines (hits, false)
    = ((hits ++ linesHits search (sourceLines path index lines)).take search.limit,
      decide (search.limit
        ≤ (hits ++ linesHits search (before lastFile (sourceLines path index lines))).length)) := by
  induction lines generalizing index hits with
  | nil =>
    have hnil : before lastFile (sourceLines path index []) = [] := by
      unfold before
      split
      · rfl
      · rfl
    rw [hnil, searchLines]
    show (hits, false) = ((hits ++ []).take search.limit, decide (search.limit ≤ (hits ++ []).length))
    rw [List.append_nil, List.take_of_length_le (by omega), decide_eq_false (by omega)]
  | cons line lines ih =>
    have hline : searchLine search path index line (lines.isEmpty && lastFile)
          ((search.fold line).length + 1) 0 (hits, false)
        = ((hits ++ lineHits search ⟨path, index, line⟩).take search.limit,
          decide (search.limit ≤ (hits ++ lineHits search ⟨path, index, line⟩).length)
            && !(lines.isEmpty && lastFile)) :=
      searchLine_eq (by omega) hroom
    have hlines : linesHits search (sourceLines path index (line :: lines))
        = lineHits search ⟨path, index, line⟩
          ++ linesHits search (sourceLines path (index + 1) lines) :=
      List.flatMap_cons
    rw [searchLines, hline, hlines, ← List.append_assoc]
    dsimp only
    by_cases hfull : search.limit ≤ (hits ++ lineHits search ⟨path, index, line⟩).length
    · rw [if_pos (by rw [List.length_take]; omega), List.take_append_of_le_length hfull, decide_eq_true hfull,
        Bool.true_and]
      refine congrArg _ ?_
      cases lines with
      | nil =>
        cases lastFile with
        | true =>
          show false = decide (search.limit ≤ (hits ++ []).length)
          rw [List.append_nil, decide_eq_false (by omega)]
        | false =>
          show true = decide (search.limit ≤ (hits ++ linesHits search [⟨path, index, line⟩]).length)
          rw [linesHits, List.flatMap_singleton, decide_eq_true hfull]
      | cons next lines =>
        have hbefore : before lastFile (sourceLines path index (line :: next :: lines))
            = ⟨path, index, line⟩
              :: before lastFile (sourceLines path (index + 1) (next :: lines)) :=
          before_cons
        rw [hbefore, linesHits, List.flatMap_cons, ← List.append_assoc]
        refine (decide_eq_true ?_).symm
        rw [List.length_append]
        omega
    · have hroom' : (hits ++ lineHits search ⟨path, index, line⟩).length < search.limit := by omega
      rw [if_neg (by rw [List.length_take]; omega), List.take_of_length_le (by omega),
        decide_eq_false hfull, Bool.false_and, ih (index + 1) hroom']
      refine congrArg _ ?_
      cases lines with
      | nil =>
        have hnil : before lastFile (sourceLines path (index + 1) []) = [] := by
          unfold before
          split
          · rfl
          · rfl
        have hshort : (linesHits search (before lastFile (sourceLines path index [line]))).length
            ≤ (lineHits search ⟨path, index, line⟩).length := by
          unfold before linesHits
          split
          · exact Nat.zero_le _
          · show (List.flatMap (lineHits search) [⟨path, index, line⟩]).length ≤ _
            rw [List.flatMap_singleton]
        rw [hnil]
        show decide (_ ≤ (_ ++ []).length) = _
        rw [List.length_append] at hroom'
        rw [List.append_nil, decide_eq_false (by omega), decide_eq_false (by
          rw [List.length_append]
          omega)]
      | cons next lines =>
        have hbefore : before lastFile (sourceLines path index (line :: next :: lines))
            = ⟨path, index, line⟩
              :: before lastFile (sourceLines path (index + 1) (next :: lines)) :=
          before_cons
        rw [hbefore, linesHits, linesHits, List.flatMap_cons, ← List.append_assoc]

-- ===== files

theorem splitLines_ne_nil (text : Units) : splitLines text ≠ [] := by
  cases text with
  | nil => exact List.cons_ne_nil _ _
  | cons u rest =>
    unfold splitLines
    split
    · exact List.cons_ne_nil _ _
    · split
      · exact List.cons_ne_nil _ _
      · split
        · exact List.cons_ne_nil _ _
        · exact List.cons_ne_nil _ _

theorem sourceLines_ne_nil {path : String} {index : Nat} {lines : List Units} (h : lines ≠ []) :
    sourceLines path index lines ≠ [] := by
  cases lines with
  | nil => exact absurd rfl h
  | cons line lines => exact List.cons_ne_nil _ _

theorem filesLines_cons (text : CodeIndexFile → String) (file : CodeIndexFile)
    (files : List CodeIndexFile) : filesLines text (file :: files)
    = sourceLines file.path 0 (splitLines (Units.ofString (text file)))
      ++ filesLines text files :=
  List.flatMap_cons

theorem filesLines_ne_nil (text : CodeIndexFile → String) (file : CodeIndexFile)
    (files : List CodeIndexFile) : filesLines text (file :: files) ≠ [] := by
  rw [filesLines_cons]
  exact List.append_ne_nil_of_left_ne_nil (sourceLines_ne_nil (splitLines_ne_nil _)) _

theorem linesHits_append (lines lines' : List SourceLine) :
    linesHits search (lines ++ lines') = linesHits search lines ++ linesHits search lines' :=
  List.flatMap_append

/-- So do the files. -/
theorem searchFiles_eq {platform : Platform} {disk : String → Reading}
    {text : CodeIndexFile → String} {files : List CodeIndexFile} (stalePaths : List String)
    (hread : ∀ file ∈ files, readCurrent platform disk file = .ok (some (text file)))
    (hroom : hits.length < search.limit) :
    searchFiles platform disk search files (hits, false) stalePaths
    = .ok (((hits ++ linesHits search (filesLines text files)).take search.limit,
        decide (search.limit
          ≤ (hits ++ linesHits search (filesLines text files).dropLast).length)),
      stalePaths) := by
  induction files generalizing hits with
  | nil =>
    have hnil : linesHits search (filesLines text []).dropLast = [] := rfl
    have hnil' : linesHits search (filesLines text []) = [] := rfl
    rw [searchFiles, hnil, hnil', List.append_nil, List.take_of_length_le (by omega),
      decide_eq_false (by omega)]
  | cons file files ih =>
    have hfile := hread file List.mem_cons_self
    have hlines := searchLines_eq file.path files.isEmpty 0
      (splitLines (Units.ofString (text file))) hroom
    have hfull : search.limit ≤ hits.length ↔ False := ⟨fun h => by omega, False.elim⟩
    rw [searchFiles]
    dsimp only
    rw [if_neg hfull.1, hfile]
    show searchFiles platform disk search files (searchLines search file.path files.isEmpty 0
      (splitLines (Units.ofString (text file))) (hits, false)) stalePaths = _
    rw [hlines, filesLines_cons, linesHits_append, ← List.append_assoc]
    cases files with
    | nil =>
      have hnil : filesLines text [] = [] := rfl
      rw [searchFiles, hnil, List.append_nil]
      show _ = Except.ok (((_ ++ []).take search.limit, _), stalePaths)
      rw [List.append_nil]
      rfl
    | cons next files =>
      show searchFiles platform disk search (next :: files)
        ((hits ++ linesHits search (sourceLines file.path 0
            (splitLines (Units.ofString (text file))))).take search.limit,
          decide (search.limit ≤ (hits ++ linesHits search (sourceLines file.path 0
            (splitLines (Units.ofString (text file))))).length)) stalePaths = _
      rw [List.dropLast_append_of_ne_nil (filesLines_ne_nil text next files), linesHits_append,
        ← List.append_assoc]
      generalize hits ++ linesHits search (sourceLines file.path 0
        (splitLines (Units.ofString (text file)))) = found
      by_cases hlimit : search.limit ≤ found.length
      · have htaken : (found.take search.limit).length = search.limit := by
          rw [List.length_take]
          omega
        rw [searchFiles]
        dsimp only
        rw [if_pos (by rw [htaken]), List.take_append_of_le_length hlimit, decide_eq_true (by
          rw [List.length_append]
          omega)]
      · rw [List.take_of_length_le (by omega), decide_eq_false hlimit]
        exact ih (fun f hf => hread f (List.mem_cons_of_mem _ hf)) (by omega)

-- ===== answers

/-- A file whose bytes are those that were indexed, and text. -/
def Unchanged (platform : Platform) (disk : String → Reading) (file : CodeIndexFile) : Prop :=
  ∃ content, disk file.path = .bytes content ∧ content.contains 0 = false
    ∧ platform.sha256Bytes content = file.digest

def currentText (platform : Platform) (disk : String → Reading) (file : CodeIndexFile) : String :=
  match disk file.path with
  | .bytes content => platform.toString content
  | _ => ""

theorem readCurrent_eq {platform : Platform} {disk : String → Reading} {file : CodeIndexFile}
    (h : Unchanged platform disk file) :
    readCurrent platform disk file = .ok (some (currentText platform disk file)) := by
  obtain ⟨content, hdisk, htext, hdigest⟩ := h
  unfold readCurrent currentText
  rw [hdisk]
  dsimp only
  rw [if_neg]
  intro h
  rcases h with h | h
  · rw [htext] at h
    cases h
  · exact h hdigest

theorem readSearch_limit {platform : Platform} {query : Units} {options : SearchOptions}
    (h : readSearch platform query options = .ok search) : 1 ≤ search.limit := by
  unfold readSearch at h
  simp only [bind_eq_ok] at h
  obtain ⟨checked, _, limit, hlimit, h⟩ := h
  obtain rfl := Except.ok.inj h
  unfold boundedInteger at hlimit
  split at hlimit
  · split at hlimit
    · next hrange =>
      obtain rfl := Except.ok.inj hlimit
      show 1 ≤ Int.toNat _
      omega
    · exact nomatch hlimit
  · exact nomatch hlimit

section
variable {platform : Platform} {rootDigest : String} {disk : String → Reading}
  {snapshot : WorkspaceCodeIndexSnapshot} {query : Units} {options : SearchOptions}

def searchedLines (platform : Platform) (disk : String → Reading)
    (snapshot : WorkspaceCodeIndexSnapshot) : List SourceLine :=
  filesLines (currentText platform disk) snapshot.files

theorem searchText_eq (hsnapshot : validateSnapshot platform rootDigest snapshot = .ok snapshot)
    (hsearch : readSearch platform query options = .ok search)
    (hfiles : ∀ file ∈ snapshot.files, Unchanged platform disk file) :
    searchText platform rootDigest disk snapshot query options
      = .ok {
          hits := (linesHits search (searchedLines platform disk snapshot)).take search.limit
          stalePaths := []
          truncated := decide (search.limit
            ≤ (linesHits search (searchedLines platform disk snapshot).dropLast).length) } := by
  have hlimit := readSearch_limit hsearch
  have hwalk := searchFiles_eq [] (fun file hfile => readCurrent_eq (hfiles file hfile))
    (show ([] : List CodeSearchHit).length < search.limit from hlimit)
  unfold searchText
  rw [hsnapshot, hsearch]
  show (searchFiles platform disk search snapshot.files ([], false) [] >>= _) = _
  rw [hwalk]
  rfl

def hitsAt (search : Search) (places : SourceLine → List Nat) (lines : List SourceLine) :
    List CodeSearchHit :=
  lines.flatMap fun at' => (places at').map (search.hit at'.path at'.index at'.line)

/-- Over unchanged files the hits are the first `limit` of the occurrences, which are
taken from left to right, and `truncated` is false for the whole of them only when
there are no more than `limit` or the limit is met before the last line. -/
theorem searchText_exact {places : SourceLine → List Nat}
    (hsnapshot : validateSnapshot platform rootDigest snapshot = .ok snapshot)
    (hsearch : readSearch platform query options = .ok search)
    (hfiles : ∀ file ∈ snapshot.files, Unchanged platform disk file)
    (hplaces : ∀ at', LeftToRight search.needle (search.fold at'.line) 0 (places at')) :
    ∃ result, searchText platform rootDigest disk snapshot query options = .ok result
    ∧ result.stalePaths = [] ∧ result.hits
        = (hitsAt search places (searchedLines platform disk snapshot)).take search.limit
    ∧ ((result.truncated = false →
          result.hits = hitsAt search places (searchedLines platform disk snapshot))
      ↔ (hitsAt search places (searchedLines platform disk snapshot)).length ≤ search.limit
        ∨ search.limit
          ≤ (hitsAt search places (searchedLines platform disk snapshot).dropLast).length) := by
  have hhits : ∀ lines, hitsAt search places lines = linesHits search lines := by
    have hplace : places = fun at' => occurrences search.needle (search.fold at'.line) := by
      funext at'
      exact (hplaces at').unique (leftToRight_occurrences _ _)
    rw [hplace]
    exact fun lines => rfl
  rw [hhits, hhits]
  refine ⟨_, searchText_eq hsnapshot hsearch hfiles, rfl, rfl, ?_⟩
  generalize linesHits search (searchedLines platform disk snapshot) = found
  dsimp only
  constructor
  · intro hall
    by_cases hlast : search.limit
        ≤ (linesHits search (searchedLines platform disk snapshot).dropLast).length
    · exact .inr hlast
    · have htaken := congrArg List.length (hall (decide_eq_false hlast))
      rw [List.length_take] at htaken
      exact .inl (by omega)
  · intro h hcut
    rcases h with h | h
    · exact List.take_of_length_le h
    · exact absurd h (of_decide_eq_false hcut)

end

def single (path text : String) : WorkspaceCodeIndexSnapshot :=
  let snapshot := {
    id := ""
    rootDigest := plain.sha256 "/workspace"
    files := [{
      path := path
      language := .typescript
      digest := plain.sha256Bytes (Utf8.encode text.toList)
      bytes := (Utf8.encode text.toList).length
      lineCount := (splitLines (Units.ofString text)).length
      symbols := []
      imports := [] }]
    skipped := ⟨0, 0, 0, 0⟩ : WorkspaceCodeIndexSnapshot }
  { snapshot with id := plain.sha256 snapshot.identity.canonicalJson }

theorem validateSnapshot_single (path text : String) :
    validateSnapshot plain (single path text).rootDigest (single path text)
    = .ok (single path text) := by
  have hid : (single path text).id = plain.sha256 (single path text).identity.canonicalJson := rfl
  unfold validateSnapshot
  rw [hid]
  generalize plain.sha256 (single path text).identity.canonicalJson = id
  rw [rejectIf, if_neg (fun h => h rfl), rejectIf, if_neg (fun h => h rfl)]
  rfl

def onDisk (text : String) : String → Reading :=
  fun _ => .bytes (Utf8.encode text.toList)

theorem unchanged_single (path text : String) (h : (Utf8.encode text.toList).contains 0 = false) :
    ∀ file ∈ (single path text).files, Unchanged plain (onDisk text) file := by
  intro file hfile
  obtain rfl := List.mem_singleton.1 hfile
  exact ⟨_, rfl, h, rfl⟩

def oneHit : SearchOptions where
  caseSensitive := true
  limit := some (.int 1)

theorem readSearch_oneHit : readSearch plain (Units.ofString "a") oneHit
      = .ok {
          query := Units.ofString "a"
          needle := Units.ofString "a"
          fold := id
          limit := 1 } := by
  rfl

theorem searchedLines_single : searchedLines plain (onDisk "aa") (single "a.ts" "aa")
    = [⟨"a.ts", 0, Units.ofString "aa"⟩] := by
  rfl

/-- Both occurrences are on the last line of the last file: the second is left out and
the answer is not marked. -/
theorem searchText_cut_short :
    ∃ result, searchText plain (single "a.ts" "aa").rootDigest (onDisk "aa") (single "a.ts" "aa")
        (Units.ofString "a") oneHit = .ok result ∧ result.truncated = false
      ∧ result.hits = [⟨"a.ts", 1, 1, Units.ofString "aa"⟩]
      ∧ LeftToRight (Units.ofString "a") (Units.ofString "aa") 0 [0, 1] := by
  refine ⟨_, searchText_eq (validateSnapshot_single "a.ts" "aa") readSearch_oneHit
    (unchanged_single "a.ts" "aa" (by decide)), ?_, ?_, ?_⟩
  · rw [searchedLines_single]
    rfl
  · rw [searchedLines_single]
    rfl
  · exact leftToRight_occurrences (Units.ofString "a") (Units.ofString "aa")

/-- Two hits on one line, of which the limit leaves one. -/
theorem searchText_exact_single :
    ∃ result, searchText plain (single "a.ts" "aa").rootDigest (onDisk "aa") (single "a.ts" "aa")
        (Units.ofString "a") oneHit = .ok result ∧ result.stalePaths = []
      ∧ result.hits = [⟨"a.ts", 1, 1, Units.ofString "aa"⟩] ∧ ((result.truncated = false →
            result.hits = [⟨"a.ts", 1, 1, Units.ofString "aa"⟩, ⟨"a.ts", 1, 2, Units.ofString "aa"⟩])
        ↔ 2 ≤ 1 ∨ 1 ≤ 0) := by
  have hplaces : ∀ at' : SourceLine, LeftToRight (Units.ofString "a") (id at'.line) 0
      (occurrences (Units.ofString "a") (id at'.line)) :=
    fun at' => leftToRight_occurrences _ _
  have h := searchText_exact (validateSnapshot_single "a.ts" "aa") readSearch_oneHit
    (unchanged_single "a.ts" "aa" (by decide)) hplaces
  rw [searchedLines_single] at h
  exact h

end OperatorRuntime.CodeIndex
