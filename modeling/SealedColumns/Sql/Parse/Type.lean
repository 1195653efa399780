import SealedColumns.Sql.Parse
import SealedColumns.Sql.Printer

/-!
Data types. A type is kept as its canonical text: the names listed here in upper case with their
sizes, any other name as it was written.
-/
namespace SealedColumns.Sql

open Parse SealedColumns.Text

/-- A parsed type. Only a listed type other than an interval may introduce a literal. -/
inductive TypeText where
  | listed (text : String)
  | interval
  | custom (text : String)

def TypeText.text : TypeText → String
  | .listed text => text
  | .interval => "INTERVAL"
  | .custom text => text

def plainTypes : List String :=
  ["BOOLEAN", "BOOL", "FLOAT4", "FLOAT8", "FLOAT64", "FLOAT32", "REAL", "INT16", "INT32", "INT64",
    "INT128", "INT256", "UINT8", "UINT16", "UINT32", "UINT64", "UINT128", "UINT256", "BYTEA",
    "TINYBLOB", "MEDIUMBLOB", "LONGBLOB", "UUID", "JSON", "JSONB", "DATE", "DATE32", "TEXT",
    "TINYTEXT", "MEDIUMTEXT", "LONGTEXT", "REGCLASS"]

def integerTypes : List String :=
  ["TINYINT", "SMALLINT", "MEDIUMINT", "INT", "INTEGER", "BIGINT", "INT2", "INT4", "INT8"]

def sizedTypes : List String :=
  ["FLOAT", "BLOB", "BINARY", "VARBINARY", "CLOB", "DATETIME", "STRING", "BYTES", "BIT"]

def characterTypes : List String := ["VARCHAR", "NVARCHAR"]

def exactTypes : List String := ["DECIMAL", "NUMERIC", "DEC", "BIGNUMERIC", "BIGDECIMAL"]

def parseSizeText : Parse String := do
  match ← next with
  | .number text _ => if text.toList.all Char.isDigit then return text else fail
  | _ => fail

def parseSize : Parse String := do
  if ← eat "(" then
    let size ← parseSizeText
    expect ")"
    return "(" ++ size ++ ")"
  else return ""

def parseCharacterSize : Parse String := do
  if ← eat "(" then
    if ← eatWord "MAX" then
      expect ")"
      return "(MAX)"
    let size ← parseSizeText
    let unit ← eatOneOf ["CHARACTERS", "OCTETS"]
    expect ")"
    return "(" ++ size ++ optionWord unit ++ ")"
  else return ""

def parseExactSize : Parse String := do
  if ← eat "(" then
    let precision ← parseSizeText
    let scale ← if ← eat "," then
        let sign := if ← eat "-" then "-" else ""
        pure ("," ++ sign ++ (← parseSizeText))
      else pure ""
    expect ")"
    return "(" ++ precision ++ scale ++ ")"
  else return ""

def parseZone : Parse String := do
  if ← eatWords ["WITH", "TIME", "ZONE"] then return " WITH TIME ZONE"
  else if ← eatWords ["WITHOUT", "TIME", "ZONE"] then return " WITHOUT TIME ZONE"
  else return ""

def parseModifier : Parse String := do
  match ← next with
  | .word text _ => return text
  | .number text _ => return text
  | .string text => return quoteText '\'' text
  | _ => fail

def parseCustomType : Parse TypeText := do
  let name ← parseName
  if ← isAt 0 "(" then
    let modifiers ← parenthesized (commaList parseModifier)
    return .custom (name.render ++ "(" ++ commaJoin modifiers ++ ")")
  else return .custom name.render

def listedType (keyword : String) : Parse TypeText := do
  if integerTypes.contains keyword then
    let size ← parseSize
    return .listed (keyword ++ size ++ (if ← eatWord "UNSIGNED" then " UNSIGNED" else ""))
  else if sizedTypes.contains keyword then return .listed (keyword ++ (← parseSize))
  else if characterTypes.contains keyword then return .listed (keyword ++ (← parseCharacterSize))
  else if exactTypes.contains keyword then return .listed (keyword ++ (← parseExactSize))
  else if keyword == "CHAR" || keyword == "CHARACTER" then
    let varying := if ← eatWord "VARYING" then " VARYING" else ""
    return .listed (keyword ++ varying ++ (← parseCharacterSize))
  else if keyword == "DOUBLE" then
    if ← eatWord "PRECISION" then return .listed "DOUBLE PRECISION"
    else return .listed ("DOUBLE" ++ (← parseExactSize))
  else if keyword == "TIMESTAMP" || keyword == "TIME" then
    let size ← parseSize
    return .listed (keyword ++ size ++ (← parseZone))
  else if keyword == "TIMESTAMPTZ" || keyword == "TIMETZ" then
    return .listed (keyword ++ (← parseSize))
  else if keyword == "SIGNED" || keyword == "UNSIGNED" then
    return .listed (keyword ++ (if ← eatWord "INTEGER" then " INTEGER" else ""))
  else return .listed keyword

def isListedType (keyword : String) : Bool :=
  plainTypes.contains keyword || integerTypes.contains keyword || sizedTypes.contains keyword ||
    characterTypes.contains keyword || exactTypes.contains keyword ||
    ["CHAR", "CHARACTER", "DOUBLE", "TIMESTAMP", "TIME", "TIMESTAMPTZ", "TIMETZ", "SIGNED",
      "UNSIGNED"].contains keyword

def parseArraySuffix : Parse (Option String) := do
  if ← eat "[" then
    if ← eat "]" then return some "[]"
    else
      let size ← parseSizeText
      expect "]"
      return some ("[" ++ size ++ "]")
  else return none

def parseBaseType : Parse TypeText := do
  match (← peek 0).bind Token.keyword? with
  | some "INTERVAL" =>
    skip 1
    return .interval
  | some keyword =>
    if isListedType keyword then
      skip 1
      listedType keyword
    else parseCustomType
  | none => parseCustomType

def parseType : Parse TypeText := do
  let base ← parseBaseType
  let suffixes ← repeated parseArraySuffix
  if suffixes.isEmpty then return base
  else return .listed (base.text ++ String.join suffixes)

end SealedColumns.Sql
