import SealedColumns.Identifier
import SealedColumns.Json.Record

/-!
A sensitive column: the source column of a table, the target column that holds its ciphertext, and
the index column that it is searched by.
-/
namespace SealedColumns

structure SensitiveColumn where
  table : String
  source : String
  target : String
  index : String
deriving DecidableEq, Repr

namespace SensitiveColumn

def fields : List String := ["table", "sourceColumn", "targetColumn", "indexColumn"]

def ofJson? (value : Json) : Option SensitiveColumn := do
  let m ← value.record? fields
  let table ← Json.required Json.asString? "table" m
  let source ← Json.required Json.asString? "sourceColumn" m
  let target ← Json.required Json.asString? "targetColumn" m
  let index ← Json.required Json.asString? "indexColumn" m
  return ⟨table, source, target, index⟩

def toJson (c : SensitiveColumn) : Json :=
  .object [("indexColumn", .string c.index), ("sourceColumn", .string c.source),
    ("table", .string c.table), ("targetColumn", .string c.target)]

/-- Table and source in the form in which names are compared. Target and index go into statements:
they lose their quotes and keep their letter case. -/
def normalized (c : SensitiveColumn) : SensitiveColumn :=
  ⟨normalizeIdentifier c.table, normalizeIdentifier c.source, stripQuotes c.target,
    stripQuotes c.index⟩

def derives (c : SensitiveColumn) (name : String) : Bool :=
  Text.asciiLower c.target == name || Text.asciiLower c.index == name

end SensitiveColumn

/-- The sensitive columns of a table by source name, and the tables by name. -/
abbrev Catalog := Members (Members SensitiveColumn)

namespace Catalog

def add (catalog : Catalog) (column : SensitiveColumn) : Catalog :=
  let c := column.normalized
  let columns := (Members.get? c.table catalog).getD []
  Members.insert c.table (Members.insert c.source c columns) catalog

/-- A later entry takes the place of an earlier one for the same column. -/
def ofColumns (columns : List SensitiveColumn) : Catalog := columns.foldl add []

end Catalog

end SealedColumns
