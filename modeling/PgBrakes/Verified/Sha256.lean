import PgBrakes.Verified.SelfDelimiting

/-!
# SHA-256

The hash function itself, so that a run can be evaluated and not only reasoned
about.  A word is a natural number below `2 ^ 32`; every sum is reduced.
Everything recurses on a list or on a number, and the kernel computes a digest in
a fraction of a second.  No result about a program depends on the values below:
where collision freedom matters it is a hypothesis.
-/

namespace PgBrakes.Verified.Sha256

open PgBrakes.Verified.SelfDelimiting

/-- The first 32 bits of the fractional parts of the cube roots of the first 64
primes. -/
def roundConstants : List Nat :=
  [ 0x428a2f98, 0x71374491, 0xb5c0fbcf, 0xe9b5dba5, 0x3956c25b, 0x59f111f1, 0x923f82a4
  , 0xab1c5ed5, 0xd807aa98, 0x12835b01, 0x243185be, 0x550c7dc3, 0x72be5d74, 0x80deb1fe
  , 0x9bdc06a7, 0xc19bf174, 0xe49b69c1, 0xefbe4786, 0x0fc19dc6, 0x240ca1cc, 0x2de92c6f
  , 0x4a7484aa, 0x5cb0a9dc, 0x76f988da, 0x983e5152, 0xa831c66d, 0xb00327c8, 0xbf597fc7
  , 0xc6e00bf3, 0xd5a79147, 0x06ca6351, 0x14292967, 0x27b70a85, 0x2e1b2138, 0x4d2c6dfc
  , 0x53380d13, 0x650a7354, 0x766a0abb, 0x81c2c92e, 0x92722c85, 0xa2bfe8a1, 0xa81a664b
  , 0xc24b8b70, 0xc76c51a3, 0xd192e819, 0xd6990624, 0xf40e3585, 0x106aa070, 0x19a4c116
  , 0x1e376c08, 0x2748774c, 0x34b0bcb5, 0x391c0cb3, 0x4ed8aa4a, 0x5b9cca4f, 0x682e6ff3
  , 0x748f82ee, 0x78a5636f, 0x84c87814, 0x8cc70208, 0x90befffa, 0xa4506ceb, 0xbef9a3f7
  , 0xc67178f2 ]

/-- Addition of words. -/
def wordAdd (x y : Nat) : Nat := (x + y) % 2 ^ 32

def rotr (x n : Nat) : Nat := (x >>> n) ||| ((x <<< (32 - n)) % 2 ^ 32)

/-- The eight working variables. -/
structure State where
  a : Nat
  b : Nat
  c : Nat
  d : Nat
  e : Nat
  f : Nat
  g : Nat
  h : Nat

namespace State

def initial : State :=
  ⟨0x6a09e667, 0xbb67ae85, 0x3c6ef372, 0xa54ff53a, 0x510e527f, 0x9b05688c, 0x1f83d9ab,
    0x5be0cd19⟩

/-- One round, with its constant and its schedule word. -/
def round (s : State) (kw : Nat × Nat) : State :=
  let choose := (s.e &&& s.f) ^^^ ((2 ^ 32 - 1 - s.e) &&& s.g)
  let majority := (s.a &&& s.b) ^^^ (s.a &&& s.c) ^^^ (s.b &&& s.c)
  let t₁ := s.h + (rotr s.e 6 ^^^ rotr s.e 11 ^^^ rotr s.e 25) + choose + kw.1 + kw.2
  let t₂ := (rotr s.a 2 ^^^ rotr s.a 13 ^^^ rotr s.a 22) + majority
  ⟨wordAdd t₁ t₂, s.a, s.b, s.c, wordAdd s.d t₁, s.e, s.f, s.g⟩

def add (s t : State) : State :=
  ⟨wordAdd s.a t.a, wordAdd s.b t.b, wordAdd s.c t.c, wordAdd s.d t.d, wordAdd s.e t.e,
    wordAdd s.f t.f, wordAdd s.g t.g, wordAdd s.h t.h⟩

def bytes (s : State) : List UInt8 :=
  [s.a, s.b, s.c, s.d, s.e, s.f, s.g, s.h].flatMap fun w => beBytes 4 w

end State

/-- The message schedule, newest word first. -/
def extendSchedule : Nat → List Nat → List Nat
  | 0, ws => ws
  | n + 1, ws =>
      let w₂ := ws.getD 1 0
      let w₁₅ := ws.getD 14 0
      let s₀ := rotr w₁₅ 7 ^^^ rotr w₁₅ 18 ^^^ (w₁₅ >>> 3)
      let s₁ := rotr w₂ 17 ^^^ rotr w₂ 19 ^^^ (w₂ >>> 10)
      extendSchedule n (wordAdd (ws.getD 15 0 + s₀) (ws.getD 6 0 + s₁) :: ws)

def compress (s : State) (block : List Nat) : State :=
  s.add ((roundConstants.zip (extendSchedule 48 block.reverse).reverse).foldl State.round s)

/-- Cut a list into pieces of `k`, at most `n` of them. -/
def chunks {α : Type} (k : Nat) : Nat → List α → List (List α)
  | 0, _ => []
  | n + 1, xs => if xs.isEmpty then [] else xs.take k :: chunks k n (xs.drop k)

def bigEndianWord (bs : List UInt8) : Nat :=
  bs.foldl (fun acc b => acc * 256 + b.toNat) 0

/-- The message, a one bit, zeros, and the length in bits, up to a whole number
of blocks. -/
def pad (msg : List UInt8) : List UInt8 :=
  msg ++ 0x80 :: List.replicate ((119 - msg.length % 64) % 64) 0 ++
    beBytes 8 (msg.length * 8)

def digest (msg : List UInt8) : List UInt8 :=
  let blocks := chunks 64 (pad msg).length (pad msg)
  (blocks.foldl (fun s block => compress s ((chunks 4 16 block).map bigEndianWord))
    State.initial).bytes

theorem digest_length (msg : List UInt8) : (digest msg).length = 32 := by
  simp [digest, State.bytes]

-- The digest of "abc".
example : digest [97, 98, 99] =
    [ 0xba, 0x78, 0x16, 0xbf, 0x8f, 0x01, 0xcf, 0xea, 0x41, 0x41, 0x40, 0xde, 0x5d, 0xae
    , 0x22, 0x23, 0xb0, 0x03, 0x61, 0xa3, 0x96, 0x17, 0x7a, 0x9c, 0xb4, 0x10, 0xff, 0x61
    , 0xf2, 0x00, 0x15, 0xad ] := by
  decide +kernel

end PgBrakes.Verified.Sha256
