import SealedColumns.ActiveColumns
import SealedColumns.Event
import SealedColumns.Handler
import SealedColumns.Parameters

/-!
What one pass over a statement is given, and what it works on. The log and the supply outlive a
failure; parameters and aliases are dropped with it.
-/
namespace SealedColumns

structure SealOptions where
  overwrite : Bool
  writeSource : Bool
deriving DecidableEq, Repr

structure Sealing where
  active : ActiveColumns
  handler : Handler
  options : SealOptions
  resultMaps : List ResultMap
  inputs : List ParameterMapping

/-- `aliases` maps the output names of ciphertext columns to result properties. -/
structure Draft where
  parameters : Parameters
  aliases : Members String
  log : List Event
  supply : Supply

abbrev Seal := ExceptT Error (StateM Draft)

namespace Seal

def fail {α : Type} (fault : SealFault) : Seal α := throw (.sealing fault)

def note (event : Event) : Seal Unit := modify fun d => { d with log := d.log ++ [event] }

def ofHandler {α : Type} : Except HandlerError α → Seal α
  | .ok a => pure a
  | .error cause => throw (.handler cause)

def freshName : Seal String :=
  modifyGet fun d =>
    let (name, supply) := d.supply.freshName
    (name, { d with supply := supply })

def setParameters (parameters : Parameters) : Seal Unit :=
  modify fun d => { d with parameters := parameters }

end Seal

namespace Sealing

def encrypt (g : Sealing) (plain : String) : Seal String := do
  let d ← get
  let (result, supply) := g.handler.encrypt plain d.supply
  set { d with supply := supply }
  Seal.ofHandler result

def index (g : Sealing) (plain : String) : Seal String := Seal.ofHandler (g.handler.index plain)

def valueAt (g : Sealing) (ordinal : Nat) : Seal Json := do
  match g.inputs[ordinal]? with
  | some mapping => return (← get).parameters.valueOf mapping
  | none => Seal.fail (.unboundPlaceholder ordinal)

/-- The sensitive column that an expression names; a derived column is none. -/
def sensitive? (g : Sealing) (scope : List String) (e : Sql.Expr Nat) : Option SensitiveColumn :=
  match e.columnName? with
  | some ident => if g.active.isDerived ident then none else g.active.getIn? scope ident
  | none => none

end Sealing

end SealedColumns
