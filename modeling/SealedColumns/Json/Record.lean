import SealedColumns.Json.Value

/-!
Reading records out of JSON values. A record is an object, whose unknown members are ignored and
whose known ones may not be repeated, or an array of its fields in order, of which those with a
default may be missing at the end.
-/
namespace SealedColumns.Json

def record? (fields : List String) : Json → Option (Members Json)
  | .object members =>
    if fields.all fun field => members.countP (fun m => m.1 == field) ≤ 1 then some members
    else none
  | .array items => if items.length ≤ fields.length then some (fields.zip items) else none
  | _ => none

def required {α : Type} (read : Json → Option α) (field : String) (m : Members Json) : Option α :=
  match m.get? field with
  | some value => read value
  | none => none

def defaulted {α : Type} (default : α) (read : Json → Option α) (field : String)
    (m : Members Json) : Option α :=
  match m.get? field with
  | some value => read value
  | none => some default

def asString? : Json → Option String
  | .string s => some s
  | _ => none

def asBoolean? : Json → Option Bool
  | .boolean b => some b
  | _ => none

def asOptional? {α : Type} (read : Json → Option α) : Json → Option (Option α)
  | .null => some none
  | value => (read value).map some

def asList? {α : Type} (read : Json → Option α) : Json → Option (List α)
  | .array items => items.mapM read
  | _ => none

/-- An object with values of one kind; the last of equal keys wins. -/
def asMembers? {α : Type} (read : Json → Option α) : Json → Option (Members α)
  | .object members =>
    (members.mapM fun (m : String × Json) => (read m.2).map fun a => (m.1, a)).map Members.ofList
  | _ => none

/-- One of some words, written as a string or as the only key of an object with the value null. -/
def asWord? {α : Type} (words : List (String × α)) : Json → Option α
  | .string s => words.lookup s
  | .object [(s, .null)] => words.lookup s
  | _ => none

end SealedColumns.Json
