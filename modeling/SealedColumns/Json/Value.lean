import SealedColumns.Json.Number

/-!
JSON values. The members of an object are a list of pairs; a value is canonical when each object
has its keys in rising order and no key twice, and every operation keeps the order it finds.
-/
namespace SealedColumns

inductive Json where
  | null
  | boolean (value : Bool)
  | number (value : Json.Number)
  | string (value : String)
  | array (items : List Json)
  | object (members : List (String × Json))

instance : Inhabited Json := ⟨.null⟩

abbrev Members (α : Type) := List (String × α)

namespace Members

variable {α β : Type}

def get? (key : String) : Members α → Option α
  | [] => none
  | (k, v) :: rest => if k = key then some v else get? key rest

def contains (key : String) (m : Members α) : Bool := (m.get? key).isSome

/-- Replaces the value of a key that is present, wherever it stands. -/
def replace (key : String) (value : α) : Members α → Members α
  | [] => []
  | (k, v) :: rest => if k = key then (k, value) :: rest else (k, v) :: replace key value rest

/-- Puts a new key in front of the first greater one. -/
def insertNew (key : String) (value : α) : Members α → Members α
  | [] => [(key, value)]
  | (k, v) :: rest =>
    if key < k then (key, value) :: (k, v) :: rest else (k, v) :: insertNew key value rest

def insert (key : String) (value : α) (m : Members α) : Members α :=
  if m.contains key then m.replace key value else m.insertNew key value

/-- Rising keys; of equal keys the last value is kept. -/
def ofList (pairs : List (String × α)) : Members α :=
  pairs.foldl (fun m (k, v) => insert k v m) []

def keys (m : Members α) : List String := m.map Prod.fst

def values (m : Members α) : List α := m.map Prod.snd

end Members

namespace Json

def ofNat (n : Nat) : Json := .number (.integer n)

def field? (key : String) : Json → Option Json
  | .object members => Members.get? key members
  | _ => none

def item? (index : Nat) : Json → Option Json
  | .array items => items[index]?
  | _ => none

def isScalar : Json → Bool
  | .string _ | .number _ | .boolean _ => true
  | _ => false

end Json

end SealedColumns
