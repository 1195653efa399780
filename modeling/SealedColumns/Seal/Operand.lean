import SealedColumns.Json.Writer
import SealedColumns.Seal.Draft

/-!
The value expressions that sealing understands: placeholders of the input, string and number
literals, and NULL.
-/
namespace SealedColumns

open Sql

inductive Operand where
  | placeholder (ordinal : Nat)
  | literal (text : String)
  | null
deriving DecidableEq, Repr

namespace Operand

def ofValue? : Value Nat → Option Operand
  | .placeholder (.numbered ordinal) => some (placeholder ordinal)
  | .string text => some (literal text)
  | .number text _ => some (literal text)
  | .null => some null
  | _ => none

def ofExpr? : Expr Nat → Option Operand
  | .value v => ofValue? v
  | _ => none

end Operand

def stringLiteral (text : String) : Expr Nat := .value (.string text)

/-- The text that a parameter value is sealed as; null has none. -/
def plainText : Json → Seal (Option String)
  | .null => pure none
  | .string s => pure (some s)
  | .number n => pure (some n.render)
  | .boolean b => pure (some (if b then "true" else "false"))
  | .array _ | .object _ => Seal.fail .structuredValue

end SealedColumns
