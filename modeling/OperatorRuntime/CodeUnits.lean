/-
Texts as the sequences of UTF-16 code units that they are, for code that walks
them by index and for lengths that count code units. Unlike a `String` such a
text may hold one half of a surrogate pair.
-/
import OperatorRuntime.Json

namespace OperatorRuntime

abbrev Units := List UInt16

namespace Units

def ofString (text : String) : Units :=
  (text.toList.flatMap Json.codeUnits).map UInt16.ofNat

def isHighSurrogate (u : UInt16) : Bool :=
  0xd800 ≤ u && u ≤ 0xdbff

def isLowSurrogate (u : UInt16) : Bool :=
  0xdc00 ≤ u && u ≤ 0xdfff

/-- The bytes of a code unit that is not part of a surrogate pair. -/
def unitBytes (u : UInt16) : Nat :=
  if u < 0x80 then 1 else if u < 0x800 then 2 else 3

/-- `Buffer.byteLength(text, 'utf8')`. -/
def byteLength : Units → Nat
  | [] => 0
  | [u] => unitBytes u
  | u :: v :: rest =>
    if isHighSurrogate u && isLowSurrogate v then 4 + byteLength rest
    else unitBytes u + byteLength (v :: rest)

end Units

end OperatorRuntime
