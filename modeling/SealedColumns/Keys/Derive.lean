import SealedColumns.Digest.Hmac
import SealedColumns.Text.Hex

/-!
Keys derived from secrets, each bound to a purpose and a key id, and the blind index of a text.
-/
namespace SealedColumns

open Text

inductive KeyPurpose where
  | data
  | index
deriving DecidableEq, Repr

def KeyPurpose.label : KeyPurpose → String
  | .data => "data"
  | .index => "index"

/-- What a key is derived for; two ids never share a key, even under one secret. -/
def derivationInfo (keyId : String) (purpose : KeyPurpose) : String :=
  "sifresql|" ++ purpose.label ++ "|" ++ keyId

def deriveKey (secret : Bytes) (keyId : String) (purpose : KeyPurpose) : Bytes :=
  Hkdf.expand (Hkdf.extract secret) (encodeUtf8 (derivationInfo keyId purpose)) 32

def blindIndexSize : Nat := 16

def blindIndex (indexKey value : Bytes) : Bytes := (Hmac.mac indexKey value).take blindIndexSize

def blindIndexText (indexKey : Bytes) (plain : String) : String :=
  encodeHex (blindIndex indexKey (encodeUtf8 plain))

end SealedColumns
