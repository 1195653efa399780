import SealedColumns.Cipher.ChaCha20
import SealedColumns.Cipher.Poly1305

/-!
Authenticated encryption: ChaCha20 for the message, Poly1305 for message and associated data under
a key that is used once.
-/
namespace SealedColumns.Aead

open Text (Bytes)

def nonceSize : Nat := 12

def tagSize : Nat := 16

def oneTimeKey (key nonce : Bytes) : Bytes := (ChaCha20.block key nonce 0).take 32

def filled (bytes : Bytes) : Bytes := bytes ++ Bytes.zeros (Bytes.gap 16 bytes.length)

/-- What the tag is computed over: both parts filled up to whole blocks, and their lengths. -/
def authenticated (associated ciphertext : Bytes) : Bytes :=
  filled associated ++ filled ciphertext ++ Bytes.ofNat 8 associated.length ++
    Bytes.ofNat 8 ciphertext.length

def tag (key nonce associated ciphertext : Bytes) : Bytes :=
  Poly1305.tag (oneTimeKey key nonce) (authenticated associated ciphertext)

def encrypt (key nonce associated plain : Bytes) : Bytes :=
  let ciphertext := ChaCha20.apply key nonce plain
  ciphertext ++ tag key nonce associated ciphertext

/-- Nothing unless the tag is right. -/
def decrypt? (key nonce associated sealed : Bytes) : Option Bytes :=
  if sealed.length < tagSize then none
  else
    let ciphertext := sealed.take (sealed.length - tagSize)
    if sealed.drop (sealed.length - tagSize) = tag key nonce associated ciphertext then
      some (ChaCha20.apply key nonce ciphertext)
    else none

end SealedColumns.Aead
