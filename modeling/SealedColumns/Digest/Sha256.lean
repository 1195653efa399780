import SealedColumns.Digest.Word

/-!
The SHA-256 digest.
-/
namespace SealedColumns.Sha256

open Text (Bytes)

structure State where
  a : Word
  b : Word
  c : Word
  d : Word
  e : Word
  f : Word
  g : Word
  h : Word
deriving DecidableEq, Repr

namespace State

def initial : State :=
  ⟨0x6a09e667, 0xbb67ae85, 0x3c6ef372, 0xa54ff53a, 0x510e527f, 0x9b05688c, 0x1f83d9ab, 0x5be0cd19⟩

def add (s t : State) : State :=
  ⟨s.a + t.a, s.b + t.b, s.c + t.c, s.d + t.d, s.e + t.e, s.f + t.f, s.g + t.g, s.h + t.h⟩

def bytes (s : State) : Bytes :=
  [s.a, s.b, s.c, s.d, s.e, s.f, s.g, s.h].flatMap Word.bytes

def round (s : State) (constant word : Word) : State :=
  let mixed := s.e.rotate 26 ^^^ s.e.rotate 21 ^^^ s.e.rotate 7
  let choice := (s.e &&& s.f) ^^^ (~~~s.e &&& s.g)
  let t1 := s.h + mixed + choice + constant + word
  let majority := (s.a &&& s.b) ^^^ (s.a &&& s.c) ^^^ (s.b &&& s.c)
  let t2 := (s.a.rotate 30 ^^^ s.a.rotate 19 ^^^ s.a.rotate 10) + majority
  ⟨t1 + t2, s.a, s.b, s.c, s.d + t1, s.e, s.f, s.g⟩

end State

def constants : List Word :=
  [0x428a2f98, 0x71374491, 0xb5c0fbcf, 0xe9b5dba5, 0x3956c25b, 0x59f111f1, 0x923f82a4, 0xab1c5ed5,
    0xd807aa98, 0x12835b01, 0x243185be, 0x550c7dc3, 0x72be5d74, 0x80deb1fe, 0x9bdc06a7, 0xc19bf174,
    0xe49b69c1, 0xefbe4786, 0x0fc19dc6, 0x240ca1cc, 0x2de92c6f, 0x4a7484aa, 0x5cb0a9dc, 0x76f988da,
    0x983e5152, 0xa831c66d, 0xb00327c8, 0xbf597fc7, 0xc6e00bf3, 0xd5a79147, 0x06ca6351, 0x14292967,
    0x27b70a85, 0x2e1b2138, 0x4d2c6dfc, 0x53380d13, 0x650a7354, 0x766a0abb, 0x81c2c92e, 0x92722c85,
    0xa2bfe8a1, 0xa81a664b, 0xc24b8b70, 0xc76c51a3, 0xd192e819, 0xd6990624, 0xf40e3585, 0x106aa070,
    0x19a4c116, 0x1e376c08, 0x2748774c, 0x34b0bcb5, 0x391c0cb3, 0x4ed8aa4a, 0x5b9cca4f, 0x682e6ff3,
    0x748f82ee, 0x78a5636f, 0x84c87814, 0x8cc70208, 0x90befffa, 0xa4506ceb, 0xbef9a3f7, 0xc67178f2]

/-- The schedule word that comes sixteen places behind `word`; `rest` are the fifteen between. -/
def nextWord (word : Word) (rest : List Word) : Word :=
  let w1 := rest.getD 0 0
  let w14 := rest.getD 13 0
  word + (w1.rotate 25 ^^^ w1.rotate 14 ^^^ (w1 >>> 3)) + rest.getD 8 0 +
    (w14.rotate 15 ^^^ w14.rotate 13 ^^^ (w14 >>> 10))

/-- The rounds that are left; `window` holds the next sixteen schedule words. -/
def rounds : List Word → List Word → State → State
  | constant :: more, word :: rest, s =>
    rounds more (rest ++ [nextWord word rest]) (s.round constant word)
  | _, _, s => s

def compress (s : State) (block : Bytes) : State := s.add (rounds constants (Bytes.words block) s)

/-- A one bit, zeros, and the number of bits, up to a multiple of 64 bytes. -/
def padding (length : Nat) : Bytes :=
  0x80 :: Bytes.zeros (Bytes.gap 64 (length + 9)) ++ (Bytes.ofNat 8 (8 * length)).reverse

def digest (message : Bytes) : Bytes :=
  ((Bytes.blocks 64 (message ++ padding message.length)).foldl compress State.initial).bytes

end SealedColumns.Sha256
