import SealedColumns.Text.Utf8

/-!
Words of 32 bits, and byte strings cut into words and blocks.
-/
namespace SealedColumns

open Text (Bytes)

abbrev Word := UInt32

def Word.rotate (x : Word) (count : Word) : Word := (x <<< count) ||| (x >>> (32 - count))

def Word.ofBytes (b0 b1 b2 b3 : UInt8) : Word :=
  (b0.toUInt32 <<< 24) ||| (b1.toUInt32 <<< 16) ||| (b2.toUInt32 <<< 8) ||| b3.toUInt32

/-- Most significant byte first. -/
def Word.bytes (x : Word) : Bytes :=
  [(x >>> 24).toUInt8, (x >>> 16).toUInt8, (x >>> 8).toUInt8, x.toUInt8]

namespace Bytes

/-- Words with the most significant byte first; an incomplete one is dropped. -/
def words : Bytes → List Word
  | a :: b :: c :: d :: rest => Word.ofBytes a b c d :: words rest
  | _ => []

/-- Words with the least significant byte first. -/
def littleWords : Bytes → List Word
  | a :: b :: c :: d :: rest => Word.ofBytes d c b a :: littleWords rest
  | _ => []

def takeBlocks (size : Nat) : Nat → Bytes → List Bytes
  | 0, _ => []
  | count + 1, bytes => bytes.take size :: takeBlocks size count (bytes.drop size)

def blocks (size : Nat) (bytes : Bytes) : List Bytes :=
  takeBlocks size ((bytes.length + size - 1) / size) bytes

/-- The number of zero bytes up to the next multiple of `size`. -/
def gap (size length : Nat) : Nat := (size - length % size) % size

def zeros (count : Nat) : Bytes := List.replicate count 0

/-- A number in `count` bytes, least significant first. -/
def ofNat : Nat → Nat → Bytes
  | 0, _ => []
  | count + 1, n => UInt8.ofNat n :: ofNat count (n / 256)

def toNat : Bytes → Nat
  | [] => 0
  | b :: rest => b.toNat + 256 * toNat rest

def xor (a b : Bytes) : Bytes := List.zipWith (· ^^^ ·) a b

end Bytes

end SealedColumns
