import SealedColumns.Json.Value

/-!
The tables of a TOML document while it is read. A table is opened by a header, or comes about as
part of a longer header or of a dotted key; no table may be opened twice, and dotted keys may not
reach into a table that a header opened.
-/
namespace SealedColumns.Toml

mutual

inductive Node where
  | value (value : Json)
  | table (table : Table)
  | tables (earlier : List Table) (last : Table)

/-- `implicit` tables have no header of their own; `dotted` ones come from dotted keys. -/
inductive Table where
  | mk (members : List (String × Node)) (implicit dotted : Bool)

end

namespace Table

def members : Table → Members Node
  | mk m _ _ => m

def isImplicit : Table → Bool
  | mk _ i _ => i

def isDotted : Table → Bool
  | mk _ _ d => d

def opened : Table := mk [] false false

def withMembers (t : Table) (m : Members Node) : Table := mk m t.isImplicit t.isDotted

def put (t : Table) (key : String) (node : Node) : Table :=
  t.withMembers (Members.insert key node t.members)

/-- Changes the table at a path, making the tables on the way there; of a list of tables the last
one is meant. -/
def change? (dotted : Bool) (f : Table → Option Table) : List String → Table → Option Table
  | [], t => f t
  | key :: rest, t =>
    match t.members.get? key with
    | none => do
      let child ← change? dotted f rest (mk [] true dotted)
      some (t.put key (.table child))
    | some (.value _) => none
    | some (.tables earlier last) => do
      let last ← change? dotted f rest last
      some (t.put key (.tables earlier last))
    | some (.table child) =>
      if dotted && !child.isImplicit then none
      else do
        let child ← change? dotted f rest child
        some (t.put key (.table child))

def splitKey? (path : List String) : Option (List String × String) :=
  path.getLast?.map fun last => (path.dropLast, last)

/-- Sets a new key; a table reached through a dotted key has to come from dotted keys itself. -/
def set? (path : List String) (value : Json) (t : Table) : Option Table := do
  let (parents, key) ← splitKey? path
  t |> change? true (fun child =>
    if child.isDotted == parents.isEmpty || child.members.contains key then none
    else some (child.put key (.value value))) parents

def open? (path : List String) (t : Table) : Option Table := do
  let (parents, key) ← splitKey? path
  t |> change? false (fun parent =>
    match parent.members.get? key with
    | none => some (parent.put key (.table opened))
    | some (.table child) =>
      if child.isImplicit && !child.isDotted then
        some (parent.put key (.table (mk child.members false false)))
      else none
    | some _ => none) parents

def append? (path : List String) (t : Table) : Option Table := do
  let (parents, key) ← splitKey? path
  t |> change? false (fun parent =>
    match parent.members.get? key with
    | none => some (parent.put key (.tables [] opened))
    | some (.tables earlier last) =>
      some (parent.put key (.tables (earlier ++ [last]) opened))
    | some _ => none) parents

def setAt? (current path : List String) (value : Json) (t : Table) : Option Table :=
  t |> change? false (set? path value) current

mutual

def toJson : Table → Json
  | mk m _ _ => .object (membersToJson m)

def nodeToJson : Node → Json
  | .value v => v
  | .table t => t.toJson
  | .tables earlier last => .array (tablesToJson earlier ++ [last.toJson])

def tablesToJson : List Table → List Json
  | [] => []
  | t :: rest => t.toJson :: tablesToJson rest

def membersToJson : List (String × Node) → List (String × Json)
  | [] => []
  | (key, node) :: rest => (key, nodeToJson node) :: membersToJson rest

end

end Table

end SealedColumns.Toml
