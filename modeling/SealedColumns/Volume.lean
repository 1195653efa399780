import SealedColumns.Text.Ascii
import SealedColumns.Text.Utf8

/-!
A tree of files held as a value: a list of paths, each with its file or directory. The empty path
is the working directory and is always there.
-/
namespace SealedColumns

open Text

inductive FileError where
  | notFound
  | occupied
  | notDirectory
  | isDirectory
  | notText
deriving DecidableEq, Repr

def FileError.message : FileError → String
  | .notFound => "No such file or directory (os error 2)"
  | .occupied => "File exists (os error 17)"
  | .notDirectory => "Not a directory (os error 20)"
  | .isDirectory => "Is a directory (os error 21)"
  | .notText => "stream did not contain valid UTF-8"

/-- The parts of a path, without empty and one-point parts. A path from the root has a slash as its
first part; every other one starts in the working directory. -/
abbrev Path := List String

namespace Path

def ofText (text : String) : Path :=
  let parts := (splitAll '/' text.toList).filter fun part => part != [] && part != ['.']
  let names := parts.map String.ofList
  if startsWith "/" text then "/" :: names else names

def text : Path → String
  | [] => "."
  | "/" :: names => "/" ++ joinWith "/" names
  | names => joinWith "/" names

/-- The empty path, and longer ones up to the whole. -/
def heads (path : Path) : List Path := (List.range (path.length + 1)).map (path.take ·)

def name? (path : Path) : Option String := path.getLast?

/-- A slash stands between the two, unless the directory ends in one or is an empty text. -/
def join (directory name : String) : String :=
  match directory.toList.getLast? with
  | none | some '/' => directory ++ name
  | some _ => directory ++ "/" ++ name

end Path

inductive Entry where
  | file (content : Bytes)
  | directory
deriving DecidableEq, Repr

structure Volume where
  entries : List (Path × Entry)
deriving DecidableEq, Repr

namespace Volume

def empty : Volume := ⟨[]⟩

def find? (v : Volume) (path : Path) : Option Entry :=
  if path.isEmpty then some .directory else v.entries.lookup path

/-- Whether a path leads through directories only, up to its last part. -/
def checkParents (v : Volume) (path : Path) : Except FileError Unit :=
  match (Path.heads path).dropLast.findSome? (fun parent =>
    match v.find? parent with
    | some .directory => none
    | some (.file _) => some FileError.notDirectory
    | none => some FileError.notFound) with
  | some e => .error e
  | none => .ok ()

def entry (v : Volume) (path : Path) : Except FileError Entry := do
  v.checkParents path
  match v.find? path with
  | some entry => pure entry
  | none => throw .notFound

def has (v : Volume) (path : Path) : Bool := (v.entry path).isOk

def isDirectory (v : Volume) (path : Path) : Bool :=
  match v.entry path with
  | .ok .directory => true
  | _ => false

def read (v : Volume) (path : Path) : Except FileError Bytes := do
  match ← v.entry path with
  | .file content => pure content
  | .directory => throw .isDirectory

def readText (v : Volume) (path : Path) : Except FileError String := do
  match decodeUtf8 (← v.read path) with
  | .ok text => pure text
  | .error _ => throw .notText

def list (v : Volume) (path : Path) : Except FileError (List String) := do
  match ← v.entry path with
  | .file _ => throw .notDirectory
  | .directory =>
    pure (v.entries.filterMap fun (place, _) =>
      if place.dropLast == path then Path.name? place else none)

def put (v : Volume) (path : Path) (entry : Entry) : Volume :=
  if v.entries.any (fun e => e.1 == path) then
    ⟨v.entries.map fun e => if e.1 == path then (path, entry) else e⟩
  else ⟨v.entries ++ [(path, entry)]⟩

def write (v : Volume) (path : Path) (content : Bytes) : Except FileError Volume := do
  v.checkParents path
  match v.find? path with
  | some .directory => throw .isDirectory
  | _ => pure (v.put path (.file content))

def create (v : Volume) (path : Path) (content : Bytes) : Except FileError Volume := do
  v.checkParents path
  match v.find? path with
  | some _ => throw .occupied
  | none => pure (v.put path (.file content))

def makeDirectory (v : Volume) (path : Path) : Except FileError Volume :=
  match v.find? path with
  | some .directory => .ok v
  | some (.file _) => .error .occupied
  | none => .ok (v.put path .directory)

def makeDirectories (v : Volume) (path : Path) : Except FileError Volume :=
  match v.checkParents path with
  | .error .notDirectory => .error .notDirectory
  | _ => (Path.heads path).foldlM makeDirectory v

def remove (v : Volume) (path : Path) : Volume := ⟨v.entries.filter fun e => e.1 != path⟩

/-- The entries that are new or differ from those of an earlier state. -/
def changes (v before : Volume) : List (Path × Entry) :=
  v.entries.filter fun e => before.entries.lookup e.1 != some e.2

end Volume

end SealedColumns
