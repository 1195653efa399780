import SealedColumns.Config
import SealedColumns.Toml.Reader
import SealedColumns.Volume

/-!
Configurations from texts and files of either format.
-/
namespace SealedColumns.Config

inductive Format where
  | json
  | toml
deriving DecidableEq, Repr

/-- What stands behind the last point of a file name, unless that point is its first character. -/
def extension? (name : String) : Option String :=
  match Text.splitLast '.' name with
  | some (head, tail) => if head.isEmpty then none else some tail
  | none => none

/-- Files whose extension is `json`, in any letter case, hold JSON; all others hold TOML. -/
def Format.ofPath (path : Path) : Format :=
  match (path.name?.bind extension?).map Text.asciiLower with
  | some "json" => .json
  | _ => .toml

def ofFormat (format : Format) (text : String) : Except Error Config :=
  match format with
  | .json =>
    match ofJsonText? text with
    | some c => .ok c
    | none => .error .json
  | .toml =>
    match (Toml.parse? text).bind ofJson? with
    | some c => .ok c
    | none => .error .toml

def load (volume : Volume) (path : String) : Except Error Config :=
  match volume.readText (Path.ofText path) with
  | .ok text => ofFormat (Format.ofPath (Path.ofText path)) text
  | .error e => .error (.file e)

end SealedColumns.Config
