import SealedColumns.Seal.Filter

/-!
Sealing queries. Each select reads the sensitive columns of its own FROM clause from their
ciphertext columns under the old names, and the names are recorded for decryption.
-/
namespace SealedColumns

open Sql

/-- The property that a result column is mapped to: by the first result mapping of that column, or
else its name in lower case. -/
def propertyOf (maps : List ResultMap) (label : Ident) : String :=
  match (maps.flatMap ResultMap.mappings).find? fun m =>
      normalizeIdentifier m.column == label.normalized with
  | some mapping => mapping.property
  | none => label.normalized

namespace Sealing

variable (g : Sealing)

def recordAlias (label : Ident) : Seal Unit :=
  modify fun d =>
    { d with aliases := d.aliases.insert label.text (propertyOf g.resultMaps label) }

def projected? (scope : List String) (e : Expr Nat) : Option SensitiveColumn :=
  (g.sensitive? scope e).filter fun column => scope.contains column.table

def sealItem (scope : List String) (item : SelectItem Nat) : Seal (SelectItem Nat) := do
  match g.projected? scope item.expr, item.label.or item.expr.columnName? with
  | some column, some label =>
    g.recordAlias label
    return ⟨item.expr.renameColumn column.target, some label⟩
  | _, _ => return item

def sealProjection (scope : List String) (items : List (SelectItem Nat)) :
    Seal (List (SelectItem Nat)) :=
  if g.options.overwrite && !scope.isEmpty then items.mapM (g.sealItem scope) else pure items

mutual

def sealQuery : Query Nat → Seal (Query Nat)
  | ⟨recursive, ctes, body, clauses⟩ => do
    let ctes ← sealCtes ctes
    let body ← sealBody body
    return ⟨recursive, ctes, body, clauses⟩

def sealCtes : List (Cte Nat) → Seal (List (Cte Nat))
  | [] => pure []
  | ⟨name, columns, materialized, query⟩ :: ctes => do
    let query ← sealQuery query
    let ctes ← sealCtes ctes
    return ⟨name, columns, materialized, query⟩ :: ctes

def sealBody : SetExpr Nat → Seal (SetExpr Nat)
  | .select s => do return .select (← sealSelect s)
  | .query q => do return .query (← sealQuery q)
  | .operation op quantifier l r => do
    let l ← sealBody l
    let r ← sealBody r
    return .operation op quantifier l r
  | body => pure body

def sealSelect : Select Nat → Seal (Select Nat)
  | ⟨order, quantifiers, projection, sources, filter, clauses⟩ => do
    let scope := scopeOf sources
    let projection ← g.sealProjection scope projection
    let sources ← sealSources sources
    let filter ← g.sealFilter scope filter
    return ⟨order, quantifiers, projection, sources, filter, clauses⟩

def sealSources : List (FromItem Nat) → Seal (List (FromItem Nat))
  | [] => pure []
  | item :: items => do
    let item ← sealSource item
    let items ← sealSources items
    return item :: items

def sealSource : FromItem Nat → Seal (FromItem Nat)
  | ⟨relation, joins⟩ => do
    let relation ← sealFactor relation
    let joins ← sealJoins joins
    return ⟨relation, joins⟩

def sealJoins : List (Join Nat) → Seal (List (Join Nat))
  | [] => pure []
  | ⟨kind, natural, relation, condition, shared⟩ :: joins => do
    let relation ← sealFactor relation
    let joins ← sealJoins joins
    return ⟨kind, natural, relation, condition, shared⟩ :: joins

def sealFactor : TableFactor Nat → Seal (TableFactor Nat)
  | .derived lateral query label => do return .derived lateral (← sealQuery query) label
  | .nested item label => do return .nested (← sealSource item) label
  | factor => pure factor

end

end Sealing

end SealedColumns
