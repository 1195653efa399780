import SealedColumns.Error
import SealedColumns.Sql.Parse.Statement

/-!
Statements from their text, in a dialect that is given by name.
-/
namespace SealedColumns

namespace Sql.Statement

def parse (dialect : Sql.Dialect) (sql : String) : Except Error Sql.Statement :=
  match Sql.parseOne dialect sql with
  | .ok statement => .ok statement
  | .error .syntaxError => .error .badSyntax
  | .error (.statementCount count) => .error (.statementCount count)

end Sql.Statement

def Sql.Dialect.ofName (name : String) : Except ConfigFault Sql.Dialect :=
  match Sql.Dialect.ofName? name with
  | some dialect => .ok dialect
  | none => .error (.unknownDialect name)

namespace Sql.Statement

def ofText (dialect sql : String) : Except Error Sql.Statement :=
  match Sql.Dialect.ofName dialect with
  | .ok d => parse d sql
  | .error fault => .error (.configuration fault)

end Sql.Statement

end SealedColumns
