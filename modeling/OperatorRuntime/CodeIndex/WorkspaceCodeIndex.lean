/-
The snapshots of `core/workspace-code-index.ts` and `searchText`.

A source text is decoded from the bytes of its file and searched code unit by
code unit. What the file system answers about a path, the digests, the decoder
and the lower case of the locale are parameters.
-/
import OperatorRuntime.CodeUnits
import OperatorRuntime.Errors
import OperatorRuntime.Lib.Occurrences
import OperatorRuntime.Lib.Bytes
import OperatorRuntime.Text

namespace OperatorRuntime.CodeIndex

open Lib

-- ===== snapshots

inductive CodeLanguage
  | typescript
  | javascript
  | java
  | python
deriving DecidableEq

def CodeLanguage.text : CodeLanguage → String
  | .typescript => "typescript"
  | .javascript => "javascript"
  | .java => "java"
  | .python => "python"

inductive CodeSymbolKind
  | klass
  | interface
  | type
  | enum
  | function
  | method
  | variable
deriving DecidableEq

def CodeSymbolKind.text : CodeSymbolKind → String
  | .klass => "class"
  | .interface => "interface"
  | .type => "type"
  | .enum => "enum"
  | .function => "function"
  | .method => "method"
  | .variable => "variable"

structure CodeSymbol where
  name : String
  kind : CodeSymbolKind
  line : Nat
  exported : Bool
deriving DecidableEq

structure CodeImport where
  specifier : String
  targetPath : Option String
deriving DecidableEq

structure CodeIndexFile where
  path : String
  language : CodeLanguage
  digest : String
  bytes : Nat
  lineCount : Nat
  symbols : List CodeSymbol
  imports : List CodeImport
deriving DecidableEq

structure Skipped where
  symlinkCount : Nat
  hardLinkCount : Nat
  oversizedCount : Nat
  binaryCount : Nat

structure WorkspaceCodeIndexSnapshot where
  id : String
  rootDigest : String
  files : List CodeIndexFile
  skipped : Skipped

structure Platform where
  sha256 : String → String
  sha256Bytes : List UInt8 → String
  toString : List UInt8 → String
  toLocaleLowerCase : Units → Units

def invalid {α : Type} (message : String) : Result α :=
  fail .workspaceCodeIndexInvalid message

def countJson (n : Nat) : Json :=
  .num (ToString.toString n)

def CodeSymbol.json (symbol : CodeSymbol) : Json :=
  .obj [("name", .str symbol.name), ("kind", .str symbol.kind.text),
    ("line", countJson symbol.line), ("exported", .bool symbol.exported)]

def CodeImport.json (dependency : CodeImport) : Json :=
  .obj (("specifier", .str dependency.specifier)
    :: dependency.targetPath.toList.map fun target => ("targetPath", .str target))

def CodeIndexFile.json (file : CodeIndexFile) : Json :=
  .obj [("path", .str file.path), ("language", .str file.language.text),
    ("digest", .str file.digest), ("bytes", countJson file.bytes),
    ("lineCount", countJson file.lineCount), ("symbols", .arr (file.symbols.map (·.json))),
    ("imports", .arr (file.imports.map (·.json)))]

def Skipped.json (skipped : Skipped) : Json :=
  .obj [("symlinkCount", countJson skipped.symlinkCount),
    ("hardLinkCount", countJson skipped.hardLinkCount),
    ("oversizedCount", countJson skipped.oversizedCount),
    ("binaryCount", countJson skipped.binaryCount)]

/-- What the id of a snapshot is the digest of. -/
def WorkspaceCodeIndexSnapshot.identity (snapshot : WorkspaceCodeIndexSnapshot) : Json :=
  .obj [("schemaVersion", countJson 1), ("rootDigest", .str snapshot.rootDigest),
    ("files", .arr (snapshot.files.map (·.json))), ("skipped", snapshot.skipped.json)]

/-- `#validateSnapshot(input)`; `rootDigest` is that of the indexer. -/
def validateSnapshot (platform : Platform) (rootDigest : String)
    (input : WorkspaceCodeIndexSnapshot) : Result WorkspaceCodeIndexSnapshot := do
  rejectIf (input.rootDigest ≠ rootDigest) .workspaceCodeIndexInvalid
    "Workspace code index belongs to a different root."
  rejectIf (input.id ≠ platform.sha256 input.identity.canonicalJson) .workspaceCodeIndexInvalid
    "Workspace code index digest does not match its content."
  return input

-- ===== current files

/-- What reading a file of a snapshot comes to: no file, one that is not regular,
has other links, is too large or lies outside the root, an error, its bytes. -/
inductive Reading
  | missing
  | irregular
  | failed (error : OperatorError)
  | bytes (content : List UInt8)

def readCurrent (platform : Platform) (disk : String → Reading) (file : CodeIndexFile) :
    Result (Option String) :=
  match disk file.path with
  | .missing => .ok none
  | .irregular => .ok none
  | .failed e => .error e
  | .bytes content =>
    if content.contains 0 = true ∨ platform.sha256Bytes content ≠ file.digest then .ok none
    else .ok (some (platform.toString content))

/-- `text.split(/\r?\n/)`. -/
def splitLines : Units → List Units
  | [] => [[]]
  | u :: rest =>
    if u = 0x0a then [] :: splitLines rest
    else
      match splitLines rest with
      | [] => [[u]]
      | line :: lines =>
        if u = 0x0d ∧ rest.head? = some 0x0a then line :: lines
        else (u :: line) :: lines

-- ===== search

structure CodeSearchHit where
  path : String
  line : Nat
  column : Nat
  excerpt : Units
deriving DecidableEq

structure CodeSearchResult where
  hits : List CodeSearchHit
  stalePaths : List String
  truncated : Bool
deriving DecidableEq

def boundedText (input : Units) (maxBytes : Nat) (label : String) : Result Units := do
  rejectIf (input = [] ∨ maxBytes < Units.byteLength input ∨ input.contains 0 = true)
    .workspaceCodeIndexInvalid (label ++ " is invalid.")
  return input

def boundedInteger (input : Number) (min max : Nat) (label : String) : Result Nat :=
  match input with
  | .int n => if min ≤ n ∧ n ≤ max then .ok n.toNat else invalid (label ++ " is invalid.")
  | .other => invalid (label ++ " is invalid.")

def ellipsis : Units :=
  Units.ofString "…"

def boundedExcerpt (line : Units) (column length : Nat) : Units :=
  let start := column - 80
  let «end» := min line.length (column + max length 1 + 120)
  (if 0 < start then ellipsis else []) ++ (line.take «end»).drop start
    ++ if «end» < line.length then ellipsis else []

/-- The query of a search: its text, what lines are searched for, how their case is
read, and the limit. -/
structure Search where
  query : Units
  needle : Units
  fold : Units → Units
  limit : Nat

def Search.hit (search : Search) (path : String) (index : Nat) (line : Units) (found : Nat) :
    CodeSearchHit where
  path := path
  line := index + 1
  column := found + 1
  excerpt := boundedExcerpt line found search.query.length

/-- The hits so far and `truncated`. -/
abbrev Found := List CodeSearchHit × Bool

/-- The loop over a line; `last` when it is the last line of the last file. -/
def searchLine (search : Search) (path : String) (index : Nat) (line : Units) (last : Bool) :
    Nat → Nat → Found → Found
  | 0, _, found => found
  | fuel + 1, start, (hits, truncated) =>
    let haystack := search.fold line
    if start ≤ haystack.length then
      match indexFrom search.needle haystack start with
      | none => (hits, truncated)
      | some found =>
        let hits := hits ++ [search.hit path index line found]
        if search.limit ≤ hits.length then (hits, !last)
        else
          searchLine search path index line last fuel
            (found + max search.needle.length 1) (hits, truncated)
    else (hits, truncated)

def searchLines (search : Search) (path : String) (lastFile : Bool) :
    Nat → List Units → Found → Found
  | _, [], found => found
  | index, line :: lines, found =>
    let found := searchLine search path index line (lines.isEmpty && lastFile)
      ((search.fold line).length + 1) 0 found
    if search.limit ≤ found.1.length then found
    else searchLines search path lastFile (index + 1) lines found

def searchFiles (platform : Platform) (disk : String → Reading) (search : Search) :
    List CodeIndexFile → Found → List String → Result (Found × List String)
  | [], found, stalePaths => .ok (found, stalePaths)
  | file :: files, found, stalePaths =>
    if search.limit ≤ found.1.length then .ok ((found.1, true), stalePaths)
    else do
      match ← readCurrent platform disk file with
      | none => searchFiles platform disk search files found (stalePaths ++ [file.path])
      | some text =>
        let found := searchLines search file.path files.isEmpty 0
          (splitLines (Units.ofString text)) found
        searchFiles platform disk search files found stalePaths

structure SearchOptions where
  caseSensitive : Bool
  limit : Option Number

/-- The query after its checks. -/
def readSearch (platform : Platform) (queryInput : Units) (options : SearchOptions) :
    Result Search := do
  let query ← boundedText queryInput 512 "query"
  let fold := if options.caseSensitive = true then id else platform.toLocaleLowerCase
  let limit ← boundedInteger (options.limit.getD (.int 100)) 1 1000 "limit"
  return { query, needle := fold query, fold, limit }

def searchText (platform : Platform) (rootDigest : String) (disk : String → Reading)
    (snapshotInput : WorkspaceCodeIndexSnapshot) (queryInput : Units) (options : SearchOptions) :
    Result CodeSearchResult := do
  let snapshot ← validateSnapshot platform rootDigest snapshotInput
  let search ← readSearch platform queryInput options
  let ((hits, truncated), stalePaths) ← searchFiles platform disk search snapshot.files ([], false) []
  return { hits, stalePaths := Json.sortTexts stalePaths.eraseDups, truncated }

-- ===== platform

/-- The platform without a locale, on bytes that are UTF-8. -/
def plain : Platform where
  sha256 text := (sha256Utf8 text).val
  sha256Bytes content := (sha256Utf8 (String.ofList (Utf8.decode content))).val
  toString content := String.ofList (Utf8.decode content)
  toLocaleLowerCase := List.map fun u => if 0x41 ≤ u && u ≤ 0x5a then u + 0x20 else u

end OperatorRuntime.CodeIndex
