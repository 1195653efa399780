import SealedColumns.Seal.Read
import SealedColumns.Seal.Write
import SealedColumns.Sql.Printer

/-!
Sealing a whole statement. Placeholders are numbered first, so that each one is tied to its mapping
while others come and go; at the end as many placeholders as mappings must be left.
-/
namespace SealedColumns

open Sql

/-- A sealed statement, and the output names of its ciphertext columns. -/
structure Sealed where
  bound : BoundStatement
  aliases : Members String

namespace Sealing

variable (g : Sealing)

/-- Only what a statement of one of the four kinds writes, reads and filters by is sealed; writes
have no scope. -/
def sealTree : Statement Nat → Seal (Statement Nat)
  | .insert x => do return .insert (← g.sealInsert x)
  | .update x => do
    let assignments ← g.sealAssignments x.assignments
    let filter ← g.sealFilter [] x.filter
    return .update { x with assignments := assignments, filter := filter }
  | .delete x => do
    let filter ← g.sealFilter [] x.filter
    return .delete { x with filter := filter }
  | .query x => do return .query (← g.sealQuery x)
  | statement => do
    Seal.note .statementPassed
    return statement

def sealStatement (statement : Statement) : Seal Sealed := do
  let (numbered, placeholders) := statement.number
  if placeholders != g.inputs.length then
    Seal.fail (.placeholderCount placeholders g.inputs.length)
  else
    let tree := (← g.sealTree numbered).restore
    let d ← get
    if tree.countAnonymous != d.parameters.length then
      Seal.fail (.sealedCount tree.countAnonymous d.parameters.length)
    else return ⟨d.parameters.toBound tree.render, d.aliases⟩

end Sealing

/-- The pass over one bound statement, with the log and the supply that it leaves. -/
def sealBound (active : ActiveColumns) (handler : Handler) (options : SealOptions)
    (resultMaps : List ResultMap) (bound : BoundStatement) (statement : Statement)
    (supply : Supply) : Except Error Sealed × List Event × Supply :=
  let g : Sealing := ⟨active, handler, options, resultMaps, bound.mappings⟩
  let (result, d) := (g.sealStatement statement).run ⟨Parameters.ofBound bound, [], [], supply⟩
  (result, d.log, d.supply)

end SealedColumns
