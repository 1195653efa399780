import SealedColumns.Seal.Operand

/-!
Sealing a WHERE clause: a sensitive column is read from its index column, and the values compared
with it give way to their indexes.
-/
namespace SealedColumns

namespace Sql

mutual

def Expr.reach : Expr Nat → Nat
  | .nested e => e.reach + 1
  | .unary _ e => e.reach + 1
  | .isNull _ e => e.reach + 1
  | .binary l _ r => l.reach + r.reach + 1
  | .pattern _ _ e _ _ => e.reach + 1
  | .inList _ e _ => e.reach + 1
  | .inQuery _ e _ => e.reach + 1
  | .call _ _ args _ _ => reachAll args + 1
  | .argument _ _ e => e.reach + 1
  | _ => 1

def reachAll : List (Expr Nat) → Nat
  | [] => 0
  | e :: es => e.reach + reachAll es + 1

end

end Sql

open Sql

abbrev Reaching (e : Expr Nat) := { e' : Expr Nat // e'.reach = e.reach }

abbrev ReachingAll (es : List (Expr Nat)) :=
  { es' : List (Expr Nat) // reachAll es' = reachAll es }

namespace Sealing

variable (g : Sealing)

/-- Gives a placeholder, which keeps its place, the index of its value; null stays. -/
def indexPlaceholder (ordinal : Nat) : Seal Unit := do
  match ← plainText (← g.valueAt ordinal) with
  | none => pure ()
  | some plain =>
    let index ← g.index plain
    let name ← Seal.freshName
    match (← get).parameters.replace? name (some (.string index)) (.origin ordinal) with
    | some parameters => Seal.setParameters parameters
    | none => pure ()

def indexValue (v : Value Nat) : Seal (Value Nat) := do
  match Operand.ofValue? v with
  | some (.placeholder ordinal) =>
    g.indexPlaceholder ordinal
    return v
  | some (.literal plain) => return .string (← g.index plain)
  | some .null | none => return v

mutual

/-- Indexes a value that is compared with a sensitive column, also inside parentheses and in the
arguments of calls. -/
def indexOperand : (e : Expr Nat) → Seal (Reaching e)
  | .value v => do
    let v' ← g.indexValue v
    return ⟨.value v', rfl⟩
  | .nested e => do
    let ⟨e', h⟩ ← indexOperand e
    return ⟨.nested e', by simp only [Expr.reach, h]⟩
  | .call name quantifier args clauses tail => do
    let ⟨args', h⟩ ← indexArguments args
    return ⟨.call name quantifier args' clauses tail, by simp only [Expr.reach, h]⟩
  | .argument name arrow e => do
    let ⟨e', h⟩ ← indexOperand e
    return ⟨.argument name arrow e', by simp only [Expr.reach, h]⟩
  | e => pure ⟨e, rfl⟩

def indexArguments : (es : List (Expr Nat)) → Seal (ReachingAll es)
  | [] => pure ⟨[], rfl⟩
  | e :: es => do
    let ⟨e', h⟩ ← indexOperand e
    let ⟨es', hs⟩ ← indexArguments es
    return ⟨e' :: es', by simp only [reachAll, h, hs]⟩

end

def indexOperandIf (indexed : Bool) (e : Expr Nat) : Seal (Reaching e) :=
  if indexed then g.indexOperand e else pure ⟨e, rfl⟩

def indexItems : List (Expr Nat) → Seal (List (Expr Nat))
  | [] => pure []
  | e :: es => do
    let e' ← g.indexOperand e
    let es' ← indexItems es
    return e'.val :: es'

def isSensitive (scope : List String) (e : Expr Nat) : Bool := (g.sensitive? scope e).isSome

def readIndex (scope : List String) (e : Expr Nat) : Expr Nat :=
  match g.sensitive? scope e with
  | some column => e.renameColumn column.index
  | none => e

mutual

/-- Of two sides that are compared, the one across from a sensitive column is indexed. Both sides
are then sealed in their turn. -/
def sealPredicate (scope : List String) : Expr Nat → Seal (Expr Nat)
  | .nested e => do return .nested (← sealPredicate scope e)
  | .unary op e => do return .unary op (← sealPredicate scope e)
  | .isNull negated e => do return .isNull negated (← sealPredicate scope e)
  | .binary l op r => do
    let onLeft := g.isSensitive scope l
    let onRight := g.isSensitive scope r
    let ⟨r', _⟩ ← g.indexOperandIf (onLeft && !onRight) r
    let ⟨l', _⟩ ← g.indexOperandIf (onRight && !onLeft) l
    let l'' ← sealPredicate scope l'
    let r'' ← sealPredicate scope r'
    return .binary l'' op r''
  | .pattern kind negated e p escape => do
    let ⟨p', _⟩ ← g.indexOperandIf (g.isSensitive scope e) p
    return .pattern kind negated (← sealPredicate scope e) p' escape
  | .inList negated e items => do
    let items' ← if g.isSensitive scope e then g.indexItems items else pure items
    return .inList negated (← sealPredicate scope e) items'
  | .inQuery negated e q => do return .inQuery negated (← sealPredicate scope e) q
  | .call name quantifier args clauses tail => do
    return .call name quantifier (← sealArguments scope args) clauses tail
  | .argument name arrow e => do return .argument name arrow (← sealPredicate scope e)
  | .column qualifier name => pure (g.readIndex scope (.column qualifier name))
  | e => pure e
termination_by e => e.reach
decreasing_by all_goals simp only [Expr.reach]; omega

def sealArguments (scope : List String) : List (Expr Nat) → Seal (List (Expr Nat))
  | [] => pure []
  | e :: es => do
    let e' ← sealPredicate scope e
    let es' ← sealArguments scope es
    return e' :: es'
termination_by es => reachAll es
decreasing_by all_goals simp only [reachAll]; omega

end

/-- Filters are sealed only where reads are turned to the sealed columns. -/
def sealFilter (scope : List String) (filter : Option (Expr Nat)) :
    Seal (Option (Expr Nat)) := do
  match filter with
  | none => return none
  | some e => if g.options.overwrite then return some (← g.sealPredicate scope e) else return some e

end Sealing

end SealedColumns
