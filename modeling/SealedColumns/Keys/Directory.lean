import SealedColumns.Keys.Provider
import SealedColumns.Supply
import SealedColumns.Text.Ascii
import SealedColumns.Text.Blank
import SealedColumns.Text.Decimal

/-!
Keys kept in a directory: a file for each key and one for the pepper, and a file that names the
current key. Files are read anew for each question, so a rotation shows at once.
-/
namespace SealedColumns

open Text

structure KeyDirectory where
  path : String
deriving DecidableEq, Repr

structure KeyStore where
  volume : Volume
  supply : Supply

abbrev Keep := ExceptT KeyError (StateM KeyStore)

namespace Keep

def ofFile {α : Type} : Except FileError α → Keep α
  | .ok a => pure a
  | .error cause => throw (.file cause)

def volume : Keep Volume := return (← get).volume

def setVolume (result : Except FileError Volume) : Keep Unit := do
  let v ← ofFile result
  modify fun s => { s with volume := v }

def drawKey : Keep Bytes :=
  modifyGet fun s =>
    let (bytes, supply) := s.supply.draw keySize
    (bytes, { s with supply := supply })

end Keep

namespace KeyDirectory

def currentName : String := "current"

def pepperName : String := "pepper.key"

def keyName (id : String) : String := "key_" ++ id ++ ".key"

/-- The id of the key that a file of this name holds. -/
def keyId? (name : String) : Option String := between? "key_" ".key" name

def filePath (d : KeyDirectory) (name : String) : String := Path.join d.path name

def place (d : KeyDirectory) (name : String) : Path := Path.ofText (d.filePath name)

/-- An empty path names no directory, though files can be placed behind it. -/
def open? (volume : Volume) (path : String) : Except KeyError KeyDirectory :=
  if !path.isEmpty && volume.isDirectory (Path.ofText path) then .ok ⟨path⟩
  else .error (.creation (.noDirectory path))

/-- Ids are made of ASCII letters, digits, hyphens and underscores. -/
def isKeyId (id : String) : Bool :=
  !id.isEmpty && id.toList.all fun c => c.isAlphanum || c == '-' || c == '_'

def keyFile (id : String) : Except KeyError String :=
  if isKeyId id then .ok (keyName id) else .error (.material (.badKeyId id))

def readSecret (d : KeyDirectory) (volume : Volume) (name : String) : Except KeyError Bytes :=
  match volume.read (d.place name) with
  | .error cause => .error (.file cause)
  | .ok bytes =>
    if bytes.length = keySize then .ok bytes
    else .error (.material (.wrongFileSize (d.filePath name) bytes.length))

/-- The text of the current file, without the blanks around it. -/
def currentId (d : KeyDirectory) (volume : Volume) : Except KeyError String :=
  match volume.readText (d.place currentName) with
  | .ok text => if isBlankText text then .error .noActiveKey else .ok (trim text)
  | .error .notFound => .error .noActiveKey
  | .error cause => .error (.file cause)

def key (d : KeyDirectory) (volume : Volume) (id : String) : Except KeyError Bytes := do
  match d.readSecret volume (← keyFile id) with
  | .error (.file .notFound) => throw (.notFound id)
  | result => result

def pepper (d : KeyDirectory) (volume : Volume) : Except KeyError (Option Bytes) :=
  match d.readSecret volume pepperName with
  | .ok bytes => .ok (some bytes)
  | .error (.file .notFound) => .ok none
  | .error cause => .error (.pepper cause)

def provider (d : KeyDirectory) (volume : Volume) : KeyProvider :=
  ⟨d.currentId volume, d.key volume, d.pepper volume⟩

/-- The number in an id such as `v7`. -/
def version? (id : String) : Option Nat :=
  match id.toList with
  | 'v' :: rest => parseWord? rest
  | _ => none

/-- Ids without a number first, then by number, then by text. -/
def precedes (a b : String) : Bool :=
  match version? a, version? b with
  | none, none => a ≤ b
  | none, some _ => true
  | some _, none => false
  | some m, some n => m < n || (m == n && a ≤ b)

def keyIds (d : KeyDirectory) (volume : Volume) : Except KeyError (List String) :=
  if d.path.isEmpty then .error (.file .notFound)
  else
    match volume.list (Path.ofText d.path) with
    | .ok names => .ok ((names.filterMap keyId?).mergeSort precedes)
    | .error cause => .error (.file cause)

def writeSecret (d : KeyDirectory) (name : String) (bytes : Bytes) : Keep Unit := do
  Keep.setVolume ((← Keep.volume).create (d.place name) bytes)

/-- Makes a new key under an id that is free, and then makes it the current one. -/
def installKey (d : KeyDirectory) (id : String) : Keep Unit := do
  let name ← MonadExcept.ofExcept (keyFile id)
  if (← Keep.volume).has (d.place name) then throw (.creation (.keyExists id))
  let bytes ← Keep.drawKey
  d.writeSecret name bytes
  Keep.setVolume ((← Keep.volume).write (d.place currentName) (encodeUtf8 id))

def make (path : String) : Keep KeyDirectory := do
  Keep.setVolume ((← Keep.volume).makeDirectories (Path.ofText path))
  let d : KeyDirectory := ⟨path⟩
  let v ← Keep.volume
  if v.has (d.place currentName) || v.has (d.place pepperName) then
    throw (.creation (.alreadyInitialized path))
  let bytes ← Keep.drawKey
  d.writeSecret pepperName bytes
  d.installKey "v1"
  return d

def nextVersion (ids : List String) : Nat :=
  ((ids.filterMap version?).foldl max 0 + 1) % word64

def rotate (d : KeyDirectory) : Keep String := do
  let ids ← MonadExcept.ofExcept (d.keyIds (← Keep.volume))
  let id := "v" ++ toString (nextVersion ids)
  d.installKey id
  return id

end KeyDirectory

end SealedColumns
