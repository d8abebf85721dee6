/-
SHA-256 on the UTF-8 bytes of a text. Words are natural numbers below
2^32, so that a digest can be computed by the kernel.
-/
import Mathlib.Algebra.Group.Nat.Defs
import Mathlib.Data.List.Basic

namespace OperatorRuntime.Lib.Sha256

-- ===== words

def add (x y : Nat) : Nat :=
  (x + y) % 2 ^ 32

def rotr (n x : Nat) : Nat :=
  (x >>> n) ||| ((x <<< (32 - n)) % 2 ^ 32)

/-- The first 32 bits of the fractional parts of the cube roots of the
first 64 primes. -/
def roundConstants : List Nat :=
  [0x428a2f98, 0x71374491, 0xb5c0fbcf, 0xe9b5dba5, 0x3956c25b, 0x59f111f1,
    0x923f82a4, 0xab1c5ed5, 0xd807aa98, 0x12835b01, 0x243185be, 0x550c7dc3,
    0x72be5d74, 0x80deb1fe, 0x9bdc06a7, 0xc19bf174, 0xe49b69c1, 0xefbe4786,
    0x0fc19dc6, 0x240ca1cc, 0x2de92c6f, 0x4a7484aa, 0x5cb0a9dc, 0x76f988da,
    0x983e5152, 0xa831c66d, 0xb00327c8, 0xbf597fc7, 0xc6e00bf3, 0xd5a79147,
    0x06ca6351, 0x14292967, 0x27b70a85, 0x2e1b2138, 0x4d2c6dfc, 0x53380d13,
    0x650a7354, 0x766a0abb, 0x81c2c92e, 0x92722c85, 0xa2bfe8a1, 0xa81a664b,
    0xc24b8b70, 0xc76c51a3, 0xd192e819, 0xd6990624, 0xf40e3585, 0x106aa070,
    0x19a4c116, 0x1e376c08, 0x2748774c, 0x34b0bcb5, 0x391c0cb3, 0x4ed8aa4a,
    0x5b9cca4f, 0x682e6ff3, 0x748f82ee, 0x78a5636f, 0x84c87814, 0x8cc70208,
    0x90befffa, 0xa4506ceb, 0xbef9a3f7, 0xc67178f2]

/-- The same of the square roots of the first eight. -/
def initialState : List Nat :=
  [0x6a09e667, 0xbb67ae85, 0x3c6ef372, 0xa54ff53a, 0x510e527f, 0x9b05688c, 0x1f83d9ab, 0x5be0cd19]

-- ===== messages

/-- The bytes of an n-byte number, most significant first. -/
def bigEndian : Nat → Nat → List Nat
  | 0, _ => []
  | n + 1, x => bigEndian n (x / 256) ++ [x % 256]

/-- A one bit, zeros up to a multiple of 64 bytes, and the bit length. -/
def pad (bytes : List Nat) : List Nat :=
  bytes ++ 128 :: List.replicate ((119 - bytes.length % 64) % 64) 0
    ++ bigEndian 8 (8 * bytes.length)

/-- Four bytes a word. -/
def wordsOf : List Nat → List Nat
  | a :: b :: c :: d :: rest =>
    (((a * 256 + b) * 256 + c) * 256 + d) :: wordsOf rest
  | _ => []

/-- Extends a message schedule, its latest word first. -/
def extend : Nat → List Nat → List Nat
  | 0, schedule => schedule
  | n + 1, schedule =>
    let w (i : Nat) : Nat := schedule.getD (i - 1) 0
    let s0 := rotr 7 (w 15) ^^^ rotr 18 (w 15) ^^^ (w 15 >>> 3)
    let s1 := rotr 17 (w 2) ^^^ rotr 19 (w 2) ^^^ (w 2 >>> 10)
    extend n (add (add (w 16) s0) (add (w 7) s1) :: schedule)

-- ===== compression

def round (state : List Nat) (constant word : Nat) : List Nat :=
  match state with
  | [a, b, c, d, e, f, g, h] =>
    let s1 := rotr 6 e ^^^ rotr 11 e ^^^ rotr 25 e
    let choice := (e &&& f) ^^^ ((e ^^^ 0xffffffff) &&& g)
    let t1 := add (add h s1) (add choice (add constant word))
    let s0 := rotr 2 a ^^^ rotr 13 a ^^^ rotr 22 a
    let majority := (a &&& b) ^^^ (a &&& c) ^^^ (b &&& c)
    [add t1 (add s0 majority), a, b, c, add d t1, e, f, g]
  | _ => state

/-- One block of sixteen words. -/
def compress (state block : List Nat) : List Nat :=
  let schedule := (extend 48 block.reverse).reverse
  let rounds := (roundConstants.zip schedule).foldl
    (fun state (constant, word) => round state constant word) state
  List.zipWith add state rounds

def compressAll : Nat → List Nat → List Nat → List Nat
  | 0, state, _ => state
  | fuel + 1, state, words =>
    if words.isEmpty then state
    else compressAll fuel (compress state (words.take 16)) (words.drop 16)

-- ===== digest

def utf8 (c : Char) : List Nat :=
  let n := c.toNat
  if n < 0x80 then [n]
  else if n < 0x800 then [0xc0 + n / 64, 0x80 + n % 64]
  else if n < 0x10000 then
    [0xe0 + n / 4096, 0x80 + n / 64 % 64, 0x80 + n % 64]
  else
    [0xf0 + n / 262144, 0x80 + n / 4096 % 64, 0x80 + n / 64 % 64, 0x80 + n % 64]

def digestWords (text : String) : List Nat :=
  let words := wordsOf (pad (text.toList.flatMap utf8))
  compressAll words.length initialState words

/-- The 64 hexadecimal digits of a digest, as numbers. -/
def digits (text : String) : List (Fin 16) :=
  (List.range 64).map fun i =>
    Fin.ofNat 16 ((digestWords text).getD (i / 8) 0 >>> (4 * (7 - i % 8)))

end OperatorRuntime.Lib.Sha256
