import SealedColumns.Error
import SealedColumns.Json.Record
import SealedColumns.Json.Reader
import SealedColumns.Text.Ascii

/-!
What a caller hands over and gets back: a mapped statement, its bound SQL text with one mapping for
each placeholder, and the result of executing it.
-/
namespace SealedColumns

inductive StatementKind where
  | insert
  | update
  | select
  | delete
  | unknown
deriving DecidableEq, Repr

namespace StatementKind

def name : StatementKind → String
  | insert => "insert"
  | update => "update"
  | select => "select"
  | delete => "delete"
  | unknown => "unknown"

def words : List (String × StatementKind) :=
  [("insert", insert), ("update", update), ("select", select), ("delete", delete),
    ("unknown", unknown)]

def ofName (text : String) : Except ConfigFault StatementKind :=
  match words.lookup (Text.asciiLower text) with
  | some kind => .ok kind
  | none => .error (.unknownKind (Text.asciiLower text))

def isSealable (kind : StatementKind) : Bool := kind != unknown

end StatementKind

structure ResultMapping where
  column : String
  property : String
deriving DecidableEq, Repr

structure ResultMap where
  id : String
  mappings : List ResultMapping
deriving DecidableEq, Repr

structure MappedStatement where
  id : String
  kind : StatementKind
  resultMaps : List ResultMap
deriving DecidableEq, Repr

inductive ParameterMode where
  | input
  | output
  | both
deriving DecidableEq, Repr

namespace ParameterMode

def name : ParameterMode → String
  | input => "in"
  | output => "out"
  | both => "inout"

def words : List (String × ParameterMode) := [("in", input), ("out", output), ("inout", both)]

end ParameterMode

inductive ValueType where
  | any
  | text
  | integer
  | float
  | boolean
  | bytes
deriving DecidableEq, Repr

namespace ValueType

def name : ValueType → String
  | any => "any"
  | text => "text"
  | integer => "integer"
  | float => "float"
  | boolean => "boolean"
  | bytes => "bytes"

def words : List (String × ValueType) :=
  [("any", any), ("text", text), ("integer", integer), ("float", float), ("boolean", boolean),
    ("bytes", bytes)]

end ValueType

structure ParameterMapping where
  property : String
  mode : ParameterMode
  valueType : ValueType
deriving DecidableEq, Repr

namespace ParameterMapping

def ofProperty (property : String) : ParameterMapping := ⟨property, .input, .any⟩

def text (property : String) : ParameterMapping := ⟨property, .input, .text⟩

end ParameterMapping

/-- The mappings bind the placeholders from left to right. Values come from the additional
parameters, or else from the parameter object. -/
structure BoundStatement where
  sql : String
  mappings : List ParameterMapping
  object : Json
  additional : Members Json

def BoundStatement.ofSql (sql : String) : BoundStatement := ⟨sql, [], .null, []⟩

inductive QueryResult where
  | rows (rows : List Json)
  | scalar (value : Json)
  | unit

namespace ResultMapping

def fields : List String := ["column", "property"]

def ofJson? (value : Json) : Option ResultMapping := do
  let m ← value.record? fields
  let column ← Json.required Json.asString? "column" m
  let property ← Json.required Json.asString? "property" m
  return ⟨column, property⟩

def toJson (m : ResultMapping) : Json :=
  .object [("column", .string m.column), ("property", .string m.property)]

end ResultMapping

namespace ResultMap

def fields : List String := ["id", "mappings"]

def ofJson? (value : Json) : Option ResultMap := do
  let m ← value.record? fields
  let id ← Json.required Json.asString? "id" m
  let mappings ← Json.defaulted [] (Json.asList? ResultMapping.ofJson?) "mappings" m
  return ⟨id, mappings⟩

def toJson (map : ResultMap) : Json :=
  .object [("id", .string map.id), ("mappings", .array (map.mappings.map ResultMapping.toJson))]

end ResultMap

namespace MappedStatement

def fields : List String := ["id", "kind", "result_maps"]

def ofJson? (value : Json) : Option MappedStatement := do
  let m ← value.record? fields
  let id ← Json.required Json.asString? "id" m
  let kind ← Json.required (Json.asWord? StatementKind.words) "kind" m
  let maps ← Json.defaulted [] (Json.asList? ResultMap.ofJson?) "result_maps" m
  return ⟨id, kind, maps⟩

def toJson (s : MappedStatement) : Json :=
  .object [("id", .string s.id), ("kind", .string s.kind.name),
    ("result_maps", .array (s.resultMaps.map ResultMap.toJson))]

end MappedStatement

namespace ParameterMapping

def fields : List String := ["property", "mode", "value_type"]

def ofJson? (value : Json) : Option ParameterMapping := do
  let m ← value.record? fields
  let property ← Json.required Json.asString? "property" m
  let mode ← Json.defaulted .input (Json.asWord? ParameterMode.words) "mode" m
  let valueType ← Json.defaulted .any (Json.asWord? ValueType.words) "value_type" m
  return ⟨property, mode, valueType⟩

def toJson (m : ParameterMapping) : Json :=
  .object [("mode", .string m.mode.name), ("property", .string m.property),
    ("value_type", .string m.valueType.name)]

end ParameterMapping

namespace BoundStatement

def fields : List String :=
  ["sql", "parameter_mappings", "parameter_object", "additional_parameters"]

def ofJson? (value : Json) : Option BoundStatement := do
  let m ← value.record? fields
  let sql ← Json.required Json.asString? "sql" m
  let mappings ←
    Json.defaulted [] (Json.asList? ParameterMapping.ofJson?) "parameter_mappings" m
  let object ← Json.defaulted .null some "parameter_object" m
  let additional ← Json.defaulted [] (Json.asMembers? some) "additional_parameters" m
  return ⟨sql, mappings, object.canonical, additional.map fun (k, v) => (k, v.canonical)⟩

def toJson (b : BoundStatement) : Json :=
  .object [("additional_parameters", .object b.additional),
    ("parameter_mappings", .array (b.mappings.map ParameterMapping.toJson)),
    ("parameter_object", b.object), ("sql", .string b.sql)]

end BoundStatement

end SealedColumns
