import SealedColumns.Digest.Sha256

/-!
Keyed digests over SHA-256, and the derivation of keys from them by extraction and expansion.
-/
namespace SealedColumns

open Text (Bytes)

namespace Hmac

/-- A key of one block: a longer one is digested first, a shorter one filled up with zeros. -/
def blockKey (key : Bytes) : Bytes :=
  let key := if 64 < key.length then Sha256.digest key else key
  key ++ Bytes.zeros (64 - key.length)

def mac (key message : Bytes) : Bytes :=
  let key := blockKey key
  let inner := Sha256.digest (key.map (· ^^^ 0x36) ++ message)
  Sha256.digest (key.map (· ^^^ 0x5c) ++ inner)

end Hmac

namespace Hkdf

/-- Extraction without a salt, which stands for a salt of zeros. -/
def extract (material : Bytes) : Bytes := Hmac.mac (Bytes.zeros 32) material

/-- Blocks of output from the one with this number on; each one goes into the next. -/
def outputFrom (key info : Bytes) : Nat → Nat → Bytes → Bytes
  | 0, _, _ => []
  | count + 1, number, previous =>
    let block := Hmac.mac key (previous ++ info ++ [UInt8.ofNat number])
    block ++ outputFrom key info count (number + 1) block

def expand (key info : Bytes) (length : Nat) : Bytes :=
  (outputFrom key info ((length + 31) / 32) 1 []).take length

end Hkdf

end SealedColumns
