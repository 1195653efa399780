import SealedColumns.Digest.Word

/-!
The Poly1305 authenticator: a polynomial over the blocks of a message, at a secret point, modulo
`2 ^ 130 - 5`.
-/
namespace SealedColumns.Poly1305

open Text (Bytes)

def modulus : Nat := Nat.pow 2 130 - 5

/-- Clears the bits of the point that have to be zero. -/
def clamp (r : Nat) : Nat := r &&& 0x0ffffffc0ffffffc0ffffffc0fffffff

def blockValue (block : Bytes) : Nat := Bytes.toNat (block ++ [1])

def evaluate (r : Nat) (blocks : List Bytes) : Nat :=
  blocks.foldl (fun sum block => (sum + blockValue block) * r % modulus) 0

/-- The tag of 16 bytes under a key of 32 bytes. -/
def tag (key message : Bytes) : Bytes :=
  let r := clamp (Bytes.toNat (key.take 16))
  let s := Bytes.toNat ((key.drop 16).take 16)
  Bytes.ofNat 16 (evaluate r (Bytes.blocks 16 message) + s)

end SealedColumns.Poly1305
