/-
`core/lsp-workspace-edit.ts`: from the line and column of an LSP position to
an offset into a document. Documents are their UTF-16 code units, which is
what both the positions and the offsets count. `normalizePosition` has made
the numbers of a position natural ones.
-/
import OperatorRuntime.CodeUnits
import OperatorRuntime.Errors

namespace OperatorRuntime.Edit

structure LspPosition where
  line : Nat
  character : Nat
deriving DecidableEq

def lineFeed : UInt16 := 10
def carriageReturn : UInt16 := 13

def lineStartsFrom : Nat → Units → List Nat
  | _, [] => []
  | index, [code] =>
    if code = carriageReturn ∨ code = lineFeed then [index + 1] else []
  | index, code :: next :: rest =>
    -- the `index += 1` inside the loop
    if code = carriageReturn ∧ next = lineFeed then
      (index + 2) :: lineStartsFrom (index + 2) rest
    else if code = carriageReturn ∨ code = lineFeed then
      (index + 1) :: lineStartsFrom (index + 1) (next :: rest)
    else lineStartsFrom (index + 1) (next :: rest)

def lineStarts (text : Units) : List Nat :=
  0 :: lineStartsFrom 0 text

def splitsSurrogatePair (text : Units) (offset : Nat) : Bool :=
  if offset = 0 ∨ text.length ≤ offset then false
  else text[offset - 1]?.any Units.isHighSurrogate && text[offset]?.any Units.isLowSurrogate

/-- A line feed or a carriage return stands at `index`. -/
def endsLine (text : Units) (index : Nat) : Prop :=
  text[index]? = some lineFeed ∨ text[index]? = some carriageReturn

instance (text : Units) (index : Nat) : Decidable (endsLine text index) :=
  inferInstanceAs (Decidable (_ ∨ _))

/-- The loop that walks `lineEnd` back over the line terminator. -/
def trimEnd (text : Units) (lineStart : Nat) : Nat → Nat
  | 0 => 0
  | lineEnd + 1 =>
    if lineStart < lineEnd + 1 ∧ endsLine text lineEnd then trimEnd text lineStart lineEnd
    else lineEnd + 1

def offsetForPosition (text : Units) (starts : List Nat) (position : LspPosition) :
    Result Nat :=
  match starts[position.line]? with
  | none => fail .lspWorkspaceEditInvalid "LSP position line exceeds the document."
  | some lineStart => do
    let nextStart := starts[position.line + 1]?.getD text.length
    let lineEnd := trimEnd text lineStart nextStart
    rejectIf (lineEnd - lineStart < position.character) .lspWorkspaceEditInvalid
      "LSP character exceeds the UTF-16 line length."
    let offset := lineStart + position.character
    rejectIf (splitsSurrogatePair text offset) .lspUtf16BoundaryInvalid
      "LSP position splits a UTF-16 surrogate pair."
    .ok offset

end OperatorRuntime.Edit
