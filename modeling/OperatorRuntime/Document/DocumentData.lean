/-
`decodeXml` of `capabilities/document-data.ts`: a chain of seven global
replacements, each over what the one before it has written.

Texts are lists of Unicode characters. A character reference to a surrogate
stands for no such character and is refused like one above 0x10ffff.
-/
import OperatorRuntime.Errors
import OperatorRuntime.Json
import OperatorRuntime.Lib.Bytes
import OperatorRuntime.Lib.Replace
import OperatorRuntime.Text

namespace OperatorRuntime.Document

open Lib

-- ===== entities

inductive Entity
  | lt
  | gt
  | amp
  | quot
  | apos
deriving DecidableEq

def Entity.char : Entity → Char
  | .lt => '<'
  | .gt => '>'
  | .amp => '&'
  | .quot => '"'
  | .apos => '\''

/-- What follows the ampersand. -/
def Entity.name : Entity → List Char
  | .lt => "lt;".toList
  | .gt => "gt;".toList
  | .amp => "amp;".toList
  | .quot => "quot;".toList
  | .apos => "apos;".toList

/-- `s.replace(/&lt;/g,'<')`, and so on. -/
def named (e : Entity) : Pattern Char OperatorError
  | '&' :: rest =>
    if e.name.isPrefixOf rest = true then some (e.name.length + 1, .ok e.char) else none
  | _ => none

-- ===== references

/-- `[0-9]`. -/
def isDecimal (c : Char) : Bool :=
  '0' ≤ c && c ≤ '9'

/-- `[0-9a-f]`, of either case. -/
def isHexadecimal (c : Char) : Bool :=
  isDecimal c || ('a' ≤ c && c ≤ 'f') || ('A' ≤ c && c ≤ 'F')

def digitValue (c : Char) : Nat :=
  if isDecimal c = true then c.toNat - 48
  else if 'a' ≤ c then c.toNat - 87
  else c.toNat - 55

/-- `Number(digits)` and `parseInt(digits, 16)`. -/
def number (base : Nat) (digits : List Char) : Nat :=
  digits.foldl (fun n c => base * n + digitValue c) 0

def fromCodePoint (n : Nat) : Result Char :=
  if n.isValidChar then .ok (Char.ofNat n)
  else fail .rangeError s!"Invalid code point {n}"

def reference (start : Nat) (isDigit : Char → Bool) (base : Nat) (rest : List Char) :
    Option (Nat × Result Char) :=
  let digits := rest.takeWhile isDigit
  if digits ≠ [] ∧ (rest.drop digits.length).head? = some ';' then
    some (start + digits.length + 1, fromCodePoint (number base digits))
  else none

/-- `/&#(\d+);/g`. -/
def decimalReference : Pattern Char OperatorError
  | '&' :: '#' :: rest => reference 2 isDecimal 10 rest
  | _ => none

/-- `/&#x([0-9a-f]+);/gi`. -/
def hexReference : Pattern Char OperatorError
  | '&' :: '#' :: 'x' :: rest => reference 3 isHexadecimal 16 rest
  | '&' :: '#' :: 'X' :: rest => reference 3 isHexadecimal 16 rest
  | _ => none

def decodeXml (s : List Char) : Result (List Char) := do
  let s ← replaceAll (named .lt) 0 s
  let s ← replaceAll (named .gt) 0 s
  let s ← replaceAll (named .amp) 0 s
  let s ← replaceAll (named .quot) 0 s
  let s ← replaceAll (named .apos) 0 s
  let s ← replaceAll decimalReference 0 s
  replaceAll hexReference 0 s

/-
CSV extraction of `capabilities/document-data.ts`, and the pages it is
answered in.

Texts are lists of Unicode characters; the characters that `parseCsvLine`
and the line separator look for are single code units, so reading by
characters is reading by code units.
-/

-- ===== texts

def maxExtractBytes : Nat := 4 * 1024 * 1024

/-- The byte order mark. -/
def mark : Char := '\ufeff'

/-- `new TextDecoder('utf-8', { fatal: true }).decode(bytes)`, which drops a
byte order mark from the start. -/
def utf8 (bytes : ByteArray) : Result (List Char) :=
  match bytes.utf8Decode? with
  | none => fail .typeError "The encoded data was not valid for encoding utf-8"
  | some text =>
    match text.toList with
    | [] => .ok []
    | c :: rest => .ok (if c = mark then rest else c :: rest)

/-- The characters within the given number of bytes; one that is cut is
decoded as a replacement character. -/
def cutText : Nat → List Char → List Char
  | _, [] => []
  | left, c :: rest =>
    if c.utf8Size ≤ left then c :: cutText (left - c.utf8Size) rest
    else if left = 0 then []
    else ['\ufffd']

def boundedText (text : List Char) : List Char :=
  if byteLength text ≤ maxExtractBytes then text else cutText maxExtractBytes text

-- ===== extract

/-- A line, or the value of a cell. -/
abbrev Cell := List Char

/-- `text.split(/\r?\n/)`. -/
def splitLines : List Char → List (List Char)
  | [] => [[]]
  | '\r' :: '\n' :: rest => [] :: splitLines rest
  | c :: rest =>
    if c = '\n' then [] :: splitLines rest
    else (splitLines rest).modifyHead (c :: ·)

/-- The loop of `parseCsvLine`; `quoted` and `cell` are its `q` and `cur`. -/
@[grind =] def parseCells : Bool → Cell → List Char → List Cell
  | _, cell, [] => [cell]
  | true, cell, '"' :: '"' :: rest => parseCells true (cell ++ ['"']) rest
  | true, cell, c :: rest =>
    if c = '"' then parseCells false cell rest else parseCells true (cell ++ [c]) rest
  | false, cell, c :: rest =>
    if c = '"' then parseCells true cell rest
    else if c = ',' then cell :: parseCells false [] rest
    else parseCells false (cell ++ [c]) rest

def parseCsvLine (line : List Char) : List Cell :=
  parseCells false [] line

/-- What `extract` answers for a CSV document. -/
structure Extracted where
  text : List Char
  rows : List (List Cell)
  sourceTruncated : Bool

def extract (bytes : ByteArray) : Result Extracted := do
  let decoded ← utf8 bytes
  let text := boundedText decoded
  let sourceLines := (splitLines text).filter fun line => !line.isEmpty
  let rows := (sourceLines.take 10000).map parseCsvLine
  return { text, rows, sourceTruncated := decide (maxExtractBytes < byteLength decoded ∨
    10000 < sourceLines.length) }

-- ===== output

/-- What every output says of the file. -/
structure Base where
  path : String
  format : String
  mimeType : String
  size : Nat
  sha256 : String

structure Page where
  offset : Nat
  nextOffset : Option Nat
  totalObservedRows : Nat
  sourceTruncated : Bool
  sourceSha256 : String

inductive Output
  /-- `{...base, ...extracted}`. -/
  | complete (base : Base) (extracted : Extracted)
  /-- `{...base, rows, page, textOmitted: true}`. -/
  | paged (base : Base) (rows : List (List Cell)) (page : Page)

def Output.rows : Output → List (List Cell)
  | .complete _ extracted => extracted.rows
  | .paged _ rows _ => rows

/-- `output.page.nextOffset`, `none` where it is null and where the output
has no page. -/
def Output.nextOffset : Output → Option Nat
  | .complete _ _ => none
  | .paged _ _ page => page.nextOffset

/-- The row the output begins at. -/
def Output.offset : Output → Nat
  | .complete _ _ => 0
  | .paged _ _ page => page.offset

def numberJson (n : Nat) : Json := .num (toString n)

def rowsJson (rows : List (List Cell)) : Json :=
  .arr (rows.map fun row => .arr (row.map fun cell => .str (String.ofList cell)))

def Base.fields (base : Base) : JsonObject :=
  [("path", .str base.path), ("format", .str base.format), ("mimeType", .str base.mimeType),
    ("size", numberJson base.size), ("sha256", .str base.sha256)]

def Page.json (page : Page) : Json :=
  .obj [("offset", numberJson page.offset),
    ("nextOffset", (page.nextOffset.map numberJson).getD .null),
    ("totalObservedRows", numberJson page.totalObservedRows),
    ("sourceTruncated", .bool page.sourceTruncated), ("sourceSha256", .str page.sourceSha256)]

def Output.json : Output → Json
  | .complete base extracted =>
    .obj (base.fields ++ [("text", .str (String.ofList extracted.text)),
      ("rows", rowsJson extracted.rows), ("sourceTruncated", .bool extracted.sourceTruncated)])
  | .paged base rows page =>
    .obj (base.fields
      ++ [("rows", rowsJson rows), ("page", page.json), ("textOmitted", .bool true)])

/-- `Buffer.byteLength(JSON.stringify(output), 'utf8')`. -/
def Output.size (output : Output) : Nat :=
  output.json.stringify.utf8ByteSize

-- ===== pages

/-- A field of the request: absent, a safe integer, or any other value. -/
inductive Field
  | absent
  | integer (n : Int)
  | other

def boundedPublicOutputBytes : Field → Result Nat
  | .absent => .ok (128 * 1024)
  | .integer n =>
    if n < 1024 ∨ 256 * 1024 < n then
      fail .documentPaginationInvalid
        "Document maxBytes must be an exact integer from 1024 to 262144."
    else .ok n.toNat
  | .other =>
    fail .documentPaginationInvalid
      "Document maxBytes must be an exact integer from 1024 to 262144."

def boundedCsvOffset : Field → Result Nat
  | .absent => .ok 0
  | .integer n =>
    if n < 0 ∨ 10000 < n then
      fail .documentPaginationInvalid "CSV row offset must be an exact bounded integer."
    else .ok n.toNat
  | .other => fail .documentPaginationInvalid "CSV row offset must be an exact bounded integer."

section
variable (base : Base) (extracted : Extracted)

/-- `n < totalObservedRows ? n : null`. -/
def following (n : Nat) : Option Nat :=
  if n < extracted.rows.length then some n else none

/-- `wrapper(following(next))`, with the rows at hand. -/
def wrapper (offset : Nat) (outputRows : List (List Cell)) (next : Nat) : Output :=
  .paged base outputRows
    { offset, nextOffset := following extracted next
      totalObservedRows := extracted.rows.length
      sourceTruncated := extracted.sourceTruncated, sourceSha256 := base.sha256 }

/-- The loop of `boundCsvExtract`, over the rows from `next` on. -/
def fillPage (offset maxBytes : Nat) :
    List (List Cell) → Nat → List (List Cell) → Result (List (List Cell) × Nat)
  | [], next, outputRows => .ok (outputRows, next)
  | row :: rows, next, outputRows =>
    if outputRows.length < 500 then
      if maxBytes < (wrapper base extracted offset (outputRows ++ [row]) (next + 1)).size then
        if outputRows = [] then
          fail .documentOutputTooLarge
            "A single CSV row exceeds the response limit; use a narrower source."
        else .ok (outputRows, next)
      else fillPage offset maxBytes rows (next + 1) (outputRows ++ [row])
    else .ok (outputRows, next)

def boundCsvExtract (offsetInput : Field) (maxBytes : Nat) : Result Output := do
  let offset ← boundedCsvOffset offsetInput
  rejectIf (extracted.rows.length < offset) .documentPaginationInvalid
    "CSV row offset exceeds the available bounded extraction."
  let (outputRows, next) ←
    fillPage base extracted offset maxBytes (extracted.rows.drop offset) offset []
  let result := wrapper base extracted offset outputRows next
  rejectIf (maxBytes < result.size) .documentOutputTooLarge
    "CSV pagination metadata exceeds response budget."
  return result

def executeCsvExtract (offsetInput : Field) (maxBytes : Nat) : Result Output := do
  let complete := Output.complete base extracted
  let output ← match offsetInput with
    | .absent =>
      if complete.size ≤ maxBytes then .ok complete
      else boundCsvExtract base extracted .absent maxBytes
    | input => boundCsvExtract base extracted input maxBytes
  rejectIf (maxBytes < output.size) .documentOutputTooLarge
    "Document output exceeds the authorized response budget. Use a narrower source or an artifact-backed workflow; no incomplete result was returned."
  return output

end

/-- `execute` of `structured.extract` on a CSV document. -/
def execute (base : Base) (bytes : ByteArray) (offsetInput maxBytesInput : Field) :
    Result Output := do
  let maxBytes ← boundedPublicOutputBytes maxBytesInput
  let extracted ← extract bytes
  executeCsvExtract base extracted offsetInput maxBytes

/-
The ZIP reader of `capabilities/document-data.ts`. A buffer is a list of bytes, a
read that leaves it throws, and `zlib.inflateRawSync` is a parameter.
-/

abbrev Buffer := List UInt8

def maxArchiveEntries : Nat := 2048

def maxArchiveUncompressed : Nat := 64 * 1024 * 1024

-- ===== buffers

/-- `readUInt16LE` and `readUInt32LE`, by the number of bytes. -/
def readUIntLE (width : Nat) (b : Buffer) (offset : Nat) : Result Nat :=
  match readLE width b offset with
  | some n => .ok n
  | none => fail .rangeError "The value of offset is out of range."

/-- `b.subarray(first, last)`, for `first <= last`. -/
def subarray (b : Buffer) (first last : Nat) : Buffer :=
  (b.take last).drop first

/-- A record of the given size starts at the position: the negation of
`p+size>b.length||b.readUInt32LE(p)!==signature`. -/
def hasRecord (size signature : Nat) (b : Buffer) (p : Nat) : Result Bool :=
  if b.length < p + size then .ok false
  else do
    let found ← readUIntLE 4 b p
    return found == signature

-- ===== entries

structure ZipEntry where
  name : List Char
  compression : Nat
  compressedSize : Nat
  uncompressedSize : Nat
  localOffset : Nat
deriving DecidableEq

def BadPath (name : List Char) : Prop :=
  name = [] ∨ ['.', '.'] <:+: name ∨ ['/'] <+: name ∨ '\\' ∈ name

instance (name : List Char) : Decidable (BadPath name) :=
  inferInstanceAs (Decidable (_ ∨ _ ∨ _ ∨ _))

/-- The backwards scan for the end of the central directory, over the given
number of positions from `least` on. -/
def findEnd (b : Buffer) (least : Nat) : Nat → Result (Option Nat)
  | 0 => .ok none
  | n + 1 => do
    let signature ← readUIntLE 4 b (least + n)
    if signature = 0x06054b50 then return some (least + n) else findEnd b least n

/-- One record of the central directory, and its size. -/
def readCentral (b : Buffer) (p : Nat) : Result (ZipEntry × Nat) := do
  let found ← hasRecord 46 0x02014b50 b p
  rejectIf (found = false) .documentArchiveInvalid "ZIP central directory is invalid."
  let compression ← readUIntLE 2 b (p + 10)
  let compressedSize ← readUIntLE 4 b (p + 20)
  let uncompressedSize ← readUIntLE 4 b (p + 24)
  let nameLen ← readUIntLE 2 b (p + 28)
  let extraLen ← readUIntLE 2 b (p + 30)
  let commentLen ← readUIntLE 2 b (p + 32)
  let localOffset ← readUIntLE 4 b (p + 42)
  let name := Utf8.decode (subarray b (p + 46) (p + 46 + nameLen))
  rejectIf (BadPath name) .documentArchiveInvalid "Archive entry path is unsafe."
  return ({ name, compression, compressedSize, uncompressedSize, localOffset },
    46 + nameLen + extraLen + commentLen)

/-- The loop over the central directory. -/
def readEntries (b : Buffer) : Nat → Nat → Nat → Result (List ZipEntry)
  | 0, _, _ => .ok []
  | n + 1, p, total => do
    let central ← readCentral b p
    let total := total + central.1.uncompressedSize
    rejectIf (maxArchiveUncompressed < total) .documentArchiveTooLarge
      "Archive expands beyond the bounded limit."
    let rest ← readEntries b n (p + central.2) total
    return central.1 :: rest

def zipEntries (b : Buffer) : Result (List ZipEntry) := do
  let least := b.length - 65557
  let eocd ← findEnd b least (b.length - 21 - least)
  match eocd with
  | none => fail .documentArchiveInvalid "ZIP end-of-central-directory not found."
  | some eocd => do
    let count ← readUIntLE 2 b (eocd + 10)
    let cdOffset ← readUIntLE 4 b (eocd + 16)
    rejectIf (maxArchiveEntries < count) .documentArchiveTooLarge
      "Archive contains too many entries."
    readEntries b count cdOffset 0

/-- The bytes of an entry from its compressed ones. -/
def decompress (inflateRawSync : Buffer → Nat → Result Buffer) (e : ZipEntry)
    (src : Buffer) : Result Buffer :=
  if e.compression = 0 then .ok src
  else if e.compression = 8 then
    inflateRawSync src (min maxArchiveUncompressed (e.uncompressedSize + 1024))
  else
    fail .documentArchiveCompressionUnsupported "ZIP entry compression method is unsupported."

def zipReadEntry (inflateRawSync : Buffer → Nat → Result Buffer) (b : Buffer)
    (e : ZipEntry) : Result Buffer := do
  let p := e.localOffset
  let found ← hasRecord 30 0x04034b50 b p
  rejectIf (found = false) .documentArchiveInvalid "ZIP local header is invalid."
  let nameLen ← readUIntLE 2 b (p + 26)
  let extraLen ← readUIntLE 2 b (p + 28)
  let first := p + 30 + nameLen + extraLen
  let last := first + e.compressedSize
  rejectIf (b.length < last) .documentArchiveInvalid "ZIP entry is truncated."
  let out ← decompress inflateRawSync e (subarray b first last)
  rejectIf (out.length ≠ e.uncompressedSize) .documentArchiveInvalid
    "ZIP entry size does not match central directory."
  return out

end OperatorRuntime.Document
