import SealedColumns.Json.Value
import SealedColumns.Keys.Provider
import SealedColumns.Text.Blank

/-!
Keys held in memory: a current key, retired ones that old ciphertexts are read with, and a pepper.
-/
namespace SealedColumns

open Text

structure StaticKeys where
  current : String
  keys : Members Bytes
  pepper : Option Bytes
deriving DecidableEq, Repr

namespace StaticKeys

def checkLength (secret : Secret) (bytes : Bytes) : Except KeyError Unit :=
  if bytes.length = keySize then .ok ()
  else .error (.material (.wrongLength secret bytes.length))

/-- The bytes of a secret from its digits; blanks around them are ignored. -/
def readHex (secret : Secret) (digits : String) : Except KeyError Bytes :=
  match decodeHex (trim digits) with
  | .ok bytes => .ok bytes
  | .error cause => .error (.material (.notHex secret cause))

def ofKey (id : String) (key : Bytes) : Except KeyError StaticKeys := do
  checkLength .masterKey key
  return ⟨id, [(id, key)], none⟩

def ofHex (id digits : String) : Except KeyError StaticKeys := do
  ofKey id (← readHex .masterKey digits)

def withPepper (k : StaticKeys) (pepper : Bytes) : Except KeyError StaticKeys := do
  checkLength .pepper pepper
  return { k with pepper := some pepper }

/-- A retired key takes the place of any key with the same id. -/
def withRetired (k : StaticKeys) (id : String) (key : Bytes) : Except KeyError StaticKeys := do
  checkLength .retiredKey key
  return { k with keys := k.keys.insert id key }

def required (options : Members String) (name : String) : Except HandlerError String :=
  match options.get? name with
  | some value => .ok value
  | none => .error (.option name "missing")

def asOption {α : Type} (name : String) : Except KeyError α → Except HandlerError α
  | .ok a => .ok a
  | .error cause => .error (.option name cause.message)

/-- Reads `masterKey`, then `pepper`, both in hexadecimal digits; `keyId` may be left out. -/
def ofOptions (options : Members String) : Except HandlerError StaticKeys := do
  let id := (options.get? "keyId").getD "k1"
  let k ← asOption "masterKey" (ofHex id (← required options "masterKey"))
  let pepper ← asOption "pepper" (readHex .pepper (← required options "pepper"))
  asOption "pepper" (k.withPepper pepper)

def provider (k : StaticKeys) : KeyProvider where
  currentId := .ok k.current
  key id := match k.keys.get? id with
    | some key => .ok key
    | none => .error (.notFound id)
  pepper := .ok k.pepper

end StaticKeys

end SealedColumns
