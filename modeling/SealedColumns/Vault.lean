import SealedColumns.Cipher.Aead
import SealedColumns.Handler
import SealedColumns.Keys.Derive
import SealedColumns.Keys.Provider
import SealedColumns.Text.Ascii
import SealedColumns.Text.Base64

/-!
The handler over a key provider. A ciphertext is written `<key id>:<base64>`, where the bytes are
the nonce, the encrypted text and the tag; the key id is authenticated too. An index is a blind
index in hexadecimal digits, under a key that comes from the pepper and stays when keys rotate.
-/
namespace SealedColumns

open Text

structure Vault where
  provider : KeyProvider
  indexKey : Bytes

namespace Vault

def separator : Char := ':'

/-- The id that the index key is derived under. -/
def indexKeyId : String := "pepper"

def ofKey {α : Type} : Except KeyError α → Except HandlerError α
  | .ok a => .ok a
  | .error cause => .error (.key cause)

def indexKey? (provider : KeyProvider) : Except HandlerError Bytes := do
  match ← ofKey provider.pepper with
  | some pepper => return deriveKey pepper indexKeyId .index
  | none => throw (.index "Pepper not available")

/-- A vault needs a pepper, since every sensitive column has an index. -/
def ofProvider (provider : KeyProvider) : Except HandlerError Vault := do
  return ⟨provider, ← indexKey? provider⟩

def dataKey (v : Vault) (id : String) : Except HandlerError Bytes := do
  return deriveKey (← ofKey (v.provider.key id)) id .data

def sealText (key : Bytes) (id : String) (nonce : Bytes) (plain : String) : String :=
  let sealed := Aead.encrypt key nonce (encodeUtf8 id) (encodeUtf8 plain)
  id ++ String.singleton separator ++ encodeBase64 (nonce ++ sealed)

def currentKey (v : Vault) : Except HandlerError (String × Bytes) := do
  let id ← ofKey v.provider.currentId
  if id.toList.contains separator then
    throw (.encryption ("key id `" ++ id ++ "` must not contain `:`"))
  return (id, ← v.dataKey id)

/-- Nothing is drawn unless there is a key. -/
def encrypt (v : Vault) (plain : String) (supply : Supply) :
    Except HandlerError String × Supply :=
  match v.currentKey with
  | .error e => (.error e, supply)
  | .ok (id, key) =>
    let (nonce, supply) := supply.draw Aead.nonceSize
    (.ok (sealText key id nonce plain), supply)

def unpack (text : String) : Except HandlerError (String × Bytes) :=
  match splitLast separator text with
  | none => .error (.decryption "missing key id")
  | some (id, encoded) =>
    match decodeBase64 encoded with
    | .error cause => .error (.decryption ("invalid base64: " ++ cause.message))
    | .ok bytes =>
      if bytes.length < Aead.nonceSize then .error (.decryption "ciphertext too short")
      else .ok (id, bytes)

def decrypt (v : Vault) (text : String) : Except HandlerError String := do
  let (id, bytes) ← unpack text
  let key ← v.dataKey id
  let nonce := bytes.take Aead.nonceSize
  match Aead.decrypt? key nonce (encodeUtf8 id) (bytes.drop Aead.nonceSize) with
  | none => throw .authentication
  | some plain =>
    match decodeUtf8 plain with
    | .ok s => return s
    | .error cause => throw (.decryption ("plaintext is not UTF-8: " ++ cause.message))

def index (v : Vault) (plain : String) : String := blindIndexText v.indexKey plain

theorem encrypt_sameNames (v : Vault) (plain : String) (supply : Supply) :
    supply.SameNames (v.encrypt plain supply).2 := by
  unfold encrypt
  split
  · exact .refl supply
  · exact supply.draw_sameNames _

def handler (v : Vault) : Handler :=
  ⟨v.encrypt, v.decrypt, fun plain => .ok (v.index plain), v.encrypt_sameNames⟩

end Vault

end SealedColumns
