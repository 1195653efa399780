import SealedColumns.Digest.Word

/-!
The ChaCha20 stream cipher. The sixteen words of its state stand in four rows; a column round
works on whole rows, and a diagonal round is a column round between two shifts of the rows.
-/
namespace SealedColumns.ChaCha20

open Text (Bytes)

structure Row where
  w0 : Word
  w1 : Word
  w2 : Word
  w3 : Word
deriving DecidableEq, Repr

namespace Row

def add (x y : Row) : Row := ⟨x.w0 + y.w0, x.w1 + y.w1, x.w2 + y.w2, x.w3 + y.w3⟩

def xor (x y : Row) : Row := ⟨x.w0 ^^^ y.w0, x.w1 ^^^ y.w1, x.w2 ^^^ y.w2, x.w3 ^^^ y.w3⟩

def rotate (x : Row) (count : Word) : Row :=
  ⟨x.w0.rotate count, x.w1.rotate count, x.w2.rotate count, x.w3.rotate count⟩

def shift (x : Row) : Row := ⟨x.w1, x.w2, x.w3, x.w0⟩

def ofWords (ws : List Word) : Row := ⟨ws.getD 0 0, ws.getD 1 0, ws.getD 2 0, ws.getD 3 0⟩

/-- The bytes of a row, the least significant of each word first. -/
def bytes (x : Row) : Bytes := [x.w0, x.w1, x.w2, x.w3].flatMap fun w => w.bytes.reverse

end Row

structure State where
  a : Row
  b : Row
  c : Row
  d : Row
deriving DecidableEq, Repr

namespace State

def add (s t : State) : State := ⟨s.a.add t.a, s.b.add t.b, s.c.add t.c, s.d.add t.d⟩

def columnRound (s : State) : State :=
  let a := s.a.add s.b
  let d := (s.d.xor a).rotate 16
  let c := s.c.add d
  let b := (s.b.xor c).rotate 12
  let a := a.add b
  let d := (d.xor a).rotate 8
  let c := c.add d
  let b := (b.xor c).rotate 7
  ⟨a, b, c, d⟩

def diagonalRound (s : State) : State :=
  let s := columnRound ⟨s.a, s.b.shift, s.c.shift.shift, s.d.shift.shift.shift⟩
  ⟨s.a, s.b.shift.shift.shift, s.c.shift.shift, s.d.shift⟩

def doubleRounds : Nat → State → State
  | 0, s => s
  | count + 1, s => doubleRounds count s.columnRound.diagonalRound

def bytes (s : State) : Bytes := s.a.bytes ++ s.b.bytes ++ s.c.bytes ++ s.d.bytes

end State

def constants : Row := ⟨0x61707865, 0x3320646e, 0x79622d32, 0x6b206574⟩

def initial (key nonce : Bytes) (counter : Nat) : State :=
  let k := Bytes.littleWords key
  ⟨constants, .ofWords k, .ofWords (k.drop 4),
    .ofWords (UInt32.ofNat counter :: Bytes.littleWords nonce)⟩

/-- The 64 bytes of keystream with this number. -/
def block (key nonce : Bytes) (counter : Nat) : Bytes :=
  let s := initial key nonce counter
  ((s.doubleRounds 10).add s).bytes

def keystream (key nonce : Bytes) : Nat → Nat → Bytes
  | _, 0 => []
  | counter, count + 1 => block key nonce counter ++ keystream key nonce (counter + 1) count

/-- Encrypts, and decrypts what was encrypted; the stream starts with block 1. -/
def apply (key nonce message : Bytes) : Bytes :=
  Bytes.xor message (keystream key nonce 1 ((message.length + 63) / 64))

end SealedColumns.ChaCha20
