import SealedColumns.Column
import SealedColumns.Error
import SealedColumns.Json.Reader
import SealedColumns.Sql.Dialect
import SealedColumns.Text.Blank

/-!
The configuration and the rules that it has to keep.
-/
namespace SealedColumns

open Text

/-- `idHeads` are the beginnings of the statement ids that are processed; `camelCase` lets a
property with underscores stand for a key without them. -/
structure Config where
  enabled : Bool
  overwrite : Bool
  writeSource : Bool
  handlerClass : Option String
  handlerOptions : Members String
  idHeads : List String
  columns : List SensitiveColumn
  dialect : String
  camelCase : Bool
deriving DecidableEq, Repr

namespace Config

def default : Config := ⟨false, false, false, none, [], [], [], "generic", false⟩

/-- An enabled configuration with nothing but a handler. -/
def ofHandlerClass (name : String) : Config :=
  { default with enabled := true, handlerClass := some name }

def withOption (c : Config) (key value : String) : Config :=
  { c with handlerOptions := c.handlerOptions.insert key value }

def withIdHead (c : Config) (head : String) : Config := { c with idHeads := c.idHeads ++ [head] }

def withColumn (c : Config) (column : SensitiveColumn) : Config :=
  { c with columns := c.columns ++ [column] }

def fields : List String :=
  ["enabled", "overwriteSourceByTarget", "writeSource", "handlerClass", "handlerOptions",
    "statementIdPrefixes", "columnSecurityConfig", "dialect", "mapUnderscoreToCamelCase"]

def ofJson? (value : Json) : Option Config := do
  let m ← value.record? fields
  let enabled ← Json.defaulted false Json.asBoolean? "enabled" m
  let overwrite ← Json.defaulted false Json.asBoolean? "overwriteSourceByTarget" m
  let writeSource ← Json.defaulted false Json.asBoolean? "writeSource" m
  let handlerClass ← Json.defaulted none (Json.asOptional? Json.asString?) "handlerClass" m
  let options ← Json.defaulted [] (Json.asMembers? Json.asString?) "handlerOptions" m
  let idHeads ← Json.defaulted [] (Json.asList? Json.asString?) "statementIdPrefixes" m
  let columns ← Json.defaulted [] (Json.asList? SensitiveColumn.ofJson?) "columnSecurityConfig" m
  let dialect ← Json.defaulted default.dialect Json.asString? "dialect" m
  let camelCase ← Json.defaulted false Json.asBoolean? "mapUnderscoreToCamelCase" m
  return ⟨enabled, overwrite, writeSource, handlerClass, options, idHeads, columns, dialect,
    camelCase⟩

def toJson (c : Config) : Json :=
  .object [("columnSecurityConfig", .array (c.columns.map SensitiveColumn.toJson)),
    ("dialect", .string c.dialect), ("enabled", .boolean c.enabled),
    ("handlerClass", c.handlerClass.elim .null .string),
    ("handlerOptions", .object (c.handlerOptions.map fun (key, value) => (key, .string value))),
    ("mapUnderscoreToCamelCase", .boolean c.camelCase),
    ("overwriteSourceByTarget", .boolean c.overwrite),
    ("statementIdPrefixes", .array (c.idHeads.map .string)),
    ("writeSource", .boolean c.writeSource)]

def ofJsonText? (text : String) : Option Config := do ofJson? (← Json.readDocument? text)

def emptyField? (c : SensitiveColumn) : Option ColumnField :=
  ([(.table, c.table), (.source, c.source), (.target, c.target), (.index, c.index)].find?
    fun member => isBlankText member.2).map Prod.fst

/-- All four names of an entry in the form in which they are compared. -/
def comparable (c : SensitiveColumn) : SensitiveColumn :=
  ⟨normalizeIdentifier c.table, normalizeIdentifier c.source, normalizeIdentifier c.target,
    normalizeIdentifier c.index⟩

/-- Checks the entries in order; `seen` holds the tables and sources of those before. -/
def checkEntries : List (String × String) → List SensitiveColumn → Except ConfigFault Unit
  | _, [] => .ok ()
  | seen, column :: rest =>
    match emptyField? column with
    | some field => .error (.emptyField column.table field)
    | none =>
      let c := comparable column
      if c.source = c.target || c.source = c.index || c.target = c.index then
        .error (.sameColumns c.table c.source)
      else if seen.contains (c.table, c.source) then .error (.configuredTwice c.table c.source)
      else checkEntries ((c.table, c.source) :: seen) rest

/-- A column of a table that is a source in one entry and derived in another. -/
def overlap? (columns : List SensitiveColumn) : Option (String × String) :=
  let entries := columns.map comparable
  (entries.map fun c => (c.table, c.source)).find? fun (table, source) =>
    entries.any fun c => c.table == table && (c.target == source || c.index == source)

def validateColumns (c : Config) : Except ConfigFault Unit := do
  if (Sql.Dialect.ofName? c.dialect).isNone then throw (.unknownDialect c.dialect)
  checkEntries [] c.columns
  match overlap? c.columns with
  | some (table, column) => throw (.sourceAndDerived table column)
  | none => pure ()

/-- A disabled configuration is always valid. -/
def validate (c : Config) : Except ConfigFault Unit :=
  if !c.enabled then .ok ()
  else if c.handlerClass.all isBlankText then .error .noHandlerClass
  else c.validateColumns

def catalog (c : Config) : Catalog := Catalog.ofColumns c.columns

end Config

end SealedColumns
