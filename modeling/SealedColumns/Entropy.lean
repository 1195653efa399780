import SealedColumns.Cipher.ChaCha20
import SealedColumns.Digest.Hmac
import SealedColumns.Supply
import SealedColumns.Text.Hex

/-!
A supply that one secret seed of 32 bytes determines.
-/
namespace SealedColumns.Supply

open Text

def seedByte (seed : Bytes) (number : Nat) : UInt8 :=
  (ChaCha20.block seed (Bytes.zeros 12) (number / 64)).getD (number % 64) 0

def seedName (seed : Bytes) (number : Nat) : String :=
  nameOf (encodeHex ((Hmac.mac seed (Bytes.ofNat 8 number)).take 16))

def ofSeed (seed : Bytes) : Supply := ofStreams (seedByte seed) (seedName seed)

end SealedColumns.Supply
