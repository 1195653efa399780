import SealedColumns.Text.Ascii
import SealedColumns.Text.Letter

/-!
SQL dialects, found by name, and the differences between them that lexing and parsing know.
-/
namespace SealedColumns.Sql

open SealedColumns.Text

inductive Dialect where
  | generic
  | mysql
  | postgres
  | hive
  | sqlite
  | snowflake
  | redshift
  | mssql
  | clickhouse
  | bigquery
  | ansi
  | duckdb
  | databricks
  | oracle
deriving DecidableEq, Repr

namespace Dialect

def names : List (String × Dialect) :=
  [("generic", generic), ("mysql", mysql), ("postgresql", postgres), ("postgres", postgres),
    ("hive", hive), ("sqlite", sqlite), ("snowflake", snowflake), ("redshift", redshift),
    ("mssql", mssql), ("clickhouse", clickhouse), ("bigquery", bigquery), ("ansi", ansi),
    ("duckdb", duckdb), ("databricks", databricks), ("oracle", oracle)]

def ofName? (name : String) : Option Dialect := names.lookup (asciiLower name)

def isAsciiLetter (c : Char) : Bool := c.isAlpha

def isBasicFrom (low : Nat) (c : Char) : Bool := low ≤ c.toNat && c.toNat ≤ 0xFFFF

def startsIdentifier (d : Dialect) (c : Char) : Bool :=
  match d with
  | generic | mssql => isAlphabetic c || c == '_' || c == '#' || c == '@'
  | mysql => isAlphabetic c || c == '_' || c == '$' || c == '@' || isBasicFrom 0x80 c
  | postgres => isAlphabetic c || c == '_' || 0x80 ≤ c.toNat
  | redshift => isAlphabetic c || c == '_' || 0x80 ≤ c.toNat || c == '#'
  | hive => isAlphabetic c || c.isDigit || c == '$'
  | sqlite => isAlphabetic c || c == '_' || isBasicFrom 0x7F c
  | bigquery => isAlphabetic c || c == '_' || c == '@'
  | ansi => isAsciiLetter c
  | databricks => isAsciiLetter c || c == '_'
  | oracle => isAlphabetic c
  | snowflake | clickhouse | duckdb => isAlphabetic c || c == '_'

def continuesIdentifier (d : Dialect) (c : Char) : Bool :=
  match d with
  | generic | mssql | oracle =>
    isAlphabetic c || c.isDigit || c == '@' || c == '$' || c == '#' || c == '_'
  | mysql => d.startsIdentifier c || c.isDigit || 0x80 ≤ c.toNat
  | postgres => isAlphabetic c || c.isDigit || c == '$' || c == '_' || 0x80 ≤ c.toNat
  | redshift => isAlphabetic c || c.isDigit || c == '$' || c == '_' || 0x80 ≤ c.toNat || c == '#'
  | hive => isAlphabetic c || c.isDigit || c == '_' || c == '$' || c == '\x7b' || c == '\x7d'
  | snowflake | duckdb => isAlphabetic c || c.isDigit || c == '$' || c == '_'
  | bigquery => isAlphabetic c || c.isDigit || c == '_'
  | ansi | databricks => isAsciiLetter c || c.isDigit || c == '_'
  | sqlite | clickhouse => d.startsIdentifier c || c.isDigit

def closingQuote? (d : Dialect) (c : Char) : Option Char :=
  match d with
  | postgres | oracle => if c == '"' then some c else none
  | mysql | bigquery | databricks => if c == '`' then some c else none
  | mssql | redshift =>
    if c == '"' then some c else if c == '[' then some ']' else none
  | sqlite =>
    if c == '"' || c == '`' then some c else if c == '[' then some ']' else none
  | _ => if c == '"' || c == '`' then some c else none

/-- A backslash in a string escapes the next character. -/
def hasBackslashEscapes (d : Dialect) : Bool :=
  d == mysql || d == bigquery || d == snowflake || d == clickhouse

/-- `\%` and `\_` keep their backslash. -/
def keepsWildcardEscapes (d : Dialect) : Bool := d == mysql

def hasHashComments (d : Dialect) : Bool :=
  d == mysql || d == bigquery || d == snowflake || d == hive

def hasSlashComments (d : Dialect) : Bool := d == snowflake

def nestsComments (d : Dialect) : Bool :=
  d == generic || d == ansi || d == postgres || d == clickhouse || d == mssql || d == databricks

/-- Two dashes start a comment only before white space. -/
def needsBlankAfterDashes (d : Dialect) : Bool := d == mysql

/-- A question mark is an operator and no placeholder. -/
def hasQuestionOperator (d : Dialect) : Bool := d == postgres || d == redshift

/-- Identifiers may start with digits. -/
def allowsNumericStart (d : Dialect) : Bool := d == mysql || d == hive

def hasByteStrings (d : Dialect) : Bool :=
  d == bigquery || d == postgres || d == mysql || d == generic

def hasRawStrings (d : Dialect) : Bool := d == bigquery || d == generic

def hasEscapeStrings (d : Dialect) : Bool :=
  d == generic || d == postgres || d == duckdb || d == redshift

def hasDollarNames (d : Dialect) : Bool := d == sqlite

/-- FILTER may follow a call; elsewhere it is a name. -/
def hasAggregateFilter (d : Dialect) : Bool :=
  [generic, postgres, hive, sqlite, duckdb, databricks].contains d

/-- An argument of a call may be named by an expression. Filters do not look into such arguments. -/
def hasExpressionNames (d : Dialect) : Bool := d == postgres || d == mssql

/-- An argument of a call may be named with an arrow. -/
def hasArrows (d : Dialect) : Bool := d != mssql

/-- GROUP BY may hold CUBE, ROLLUP and GROUPING SETS. -/
def hasGroupingSets (d : Dialect) : Bool := d == generic || d == postgres || d == duckdb

/-- WITH ROLLUP and its like may follow a GROUP BY. -/
def hasGroupModifiers (d : Dialect) : Bool :=
  d == generic || d == mysql || d == clickhouse || d == hive

/-- A select may project nothing. -/
def hasEmptyProjection (d : Dialect) : Bool := d == generic || d == postgres

/-- A star may be followed by the columns that it leaves out. -/
def hasStarExcept (d : Dialect) : Bool :=
  d == generic || d == bigquery || d == clickhouse || d == databricks

def hasStarExclude (d : Dialect) : Bool :=
  d == generic || d == duckdb || d == snowflake || d == redshift

def hasEmptyInList (d : Dialect) : Bool := d == sqlite

def hasLimitComma (d : Dialect) : Bool :=
  d == generic || d == mysql || d == clickhouse || d == sqlite

def hasInsertSet (d : Dialect) : Bool := d == mysql

def hasInsertModifiers (d : Dialect) : Bool := d == mysql || d == generic

def hasSourcesFirst (d : Dialect) : Bool := d == generic || d == duckdb || d == clickhouse

/-- DELETE may name its tables without FROM. -/
def hasBareDelete (d : Dialect) : Bool := d == generic || d == bigquery || d == oracle

/-- Parentheses may stand around a lone table in FROM. -/
def hasLoneParentheses (d : Dialect) : Bool := d == generic || d == snowflake

def hasValuesSource (d : Dialect) : Bool := d == generic || d == snowflake || d == databricks

def hasUserWords (d : Dialect) : Bool := d == generic || d == postgres

def hasAliasAssignment (d : Dialect) : Bool := d == mssql

def joinsStringLiterals (d : Dialect) : Bool := d == mysql

end Dialect

end SealedColumns.Sql
