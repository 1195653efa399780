import SealedColumns.Column
import SealedColumns.Distinct
import SealedColumns.Sql.Walk

/-!
The sensitive columns that one statement can touch: those of every configured table it mentions
anywhere.
-/
namespace SealedColumns

namespace Sql

variable {ν : Type}

/-- The tables a statement mentions, the target of an INSERT first. -/
def Statement.referencedTables (statement : Statement ν) : List Name :=
  match statement with
  | .insert x => distinct (x.table :: statement.tableNames)
  | _ => distinct statement.tableNames

/-- What a table may be configured under: its whole dotted name, else its last part. -/
def tableKeys (name : Name) : List String :=
  match name.map Ident.normalized with
  | [] => []
  | [key] => [key]
  | parts => Text.joinWith "." parts :: (parts.getLast?).toList

mutual

/-- The tables a FROM clause names itself; derived tables are passed over. -/
def TableFactor.baseTables : TableFactor ν → List Name
  | .table name _ _ _ => [name]
  | .derived _ _ _ => []
  | .nested item _ => item.baseTables

def joinTables : List (Join ν) → List Name
  | [] => []
  | ⟨_, _, relation, _, _⟩ :: joins => relation.baseTables ++ joinTables joins

def FromItem.baseTables : FromItem ν → List Name
  | ⟨relation, joins⟩ => relation.baseTables ++ joinTables joins

end

def baseTables (sources : List (FromItem ν)) : List Name := sources.flatMap FromItem.baseTables

def scopeOf (sources : List (FromItem ν)) : List String := (baseTables sources).flatMap tableKeys

end Sql

open Sql

namespace Catalog

/-- The configured table that a name stands for. -/
def tableOf? (catalog : Catalog) (name : Name) : Option String :=
  (tableKeys name).find? (Members.contains · catalog)

def columnsOf (catalog : Catalog) (table : String) : List SensitiveColumn :=
  ((Members.get? table catalog).getD []).values

end Catalog

/-- Tables and columns in the order in which the statement mentions the tables. -/
structure ActiveColumns where
  tables : List String
  columns : List SensitiveColumn
deriving DecidableEq, Repr

namespace ActiveColumns

def resolve (statement : Statement) (catalog : Catalog) : ActiveColumns :=
  let tables := distinct (statement.referencedTables.filterMap catalog.tableOf?)
  ⟨tables, tables.flatMap catalog.columnsOf⟩

def isEmpty (active : ActiveColumns) : Bool := active.columns.isEmpty

def sortedTables (active : ActiveColumns) : List String :=
  active.tables.mergeSort fun a b => decide (a ≤ b)

def candidates (active : ActiveColumns) (ident : Ident) : List SensitiveColumn :=
  active.columns.filter fun c => c.source == ident.normalized

/-- The column of that name, of the table mentioned first. -/
def get? (active : ActiveColumns) (ident : Ident) : Option SensitiveColumn :=
  (active.candidates ident).head?

/-- The column of that name in one of the tables of a scope, or else of the table mentioned
first. -/
def getIn? (active : ActiveColumns) (scope : List String) (ident : Ident) :
    Option SensitiveColumn :=
  ((active.candidates ident).find? fun c => scope.contains c.table).or (active.get? ident)

def isDerived (active : ActiveColumns) (ident : Ident) : Bool :=
  active.columns.any (·.derives ident.normalized)

end ActiveColumns

end SealedColumns
