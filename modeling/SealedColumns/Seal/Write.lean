import SealedColumns.Seal.Operand

/-!
Sealing what INSERT and UPDATE write. A sensitive column and its value give way to two: the
ciphertext goes to the target column and the index to the index column.
-/
namespace SealedColumns

open Sql

def expand {m : Type → Type} [Monad m] {α β : Type} (keep : Bool) (derive : β → α → m (α × α)) :
    List (α × Option β) → m (List α)
  | [] => pure []
  | (item, none) :: items => do
    let rest ← expand keep derive items
    return item :: rest
  | (item, some slot) :: items => do
    let (target, index) ← derive slot item
    let rest ← expand keep derive items
    return if keep then item :: target :: index :: rest else target :: index :: rest

namespace Sealing

variable (g : Sealing)

def sealText (plain : String) : Seal (String × String) := do
  let target ← g.encrypt plain
  let index ← g.index plain
  return (target, index)

def sealedValues : Option String → Seal (Json × Json)
  | none => pure (.null, .null)
  | some plain => do
    let (target, index) ← g.sealText plain
    return (.string target, .string index)

/-- Binds ciphertext and index right behind the mapping of the placeholder, which goes unless the
source column is kept. -/
def bindPair (ordinal : Nat) (target index : Json) : Seal Unit := do
  let targetName ← Seal.freshName
  let indexName ← Seal.freshName
  let parameters := (← get).parameters
  match parameters.addAfter? targetName target (.origin ordinal) 0 with
  | none => Seal.fail (.noMapping ordinal)
  | some parameters =>
    match parameters.addAfter? indexName index (.origin ordinal) 1 with
    | none => Seal.fail (.noMapping ordinal)
    | some parameters =>
      if g.options.writeSource then Seal.setParameters parameters
      else
        match parameters.remove? (.origin ordinal) with
        | some (_, parameters) => Seal.setParameters parameters
        | none => Seal.setParameters parameters

def sealOperand : Operand → Seal (Expr Nat × Expr Nat)
  | .placeholder ordinal => do
    let plain ← plainText (← g.valueAt ordinal)
    let (target, index) ← g.sealedValues plain
    g.bindPair ordinal target index
    return (.anonymous, .anonymous)
  | .literal plain => do
    let (target, index) ← g.sealText plain
    return (stringLiteral target, stringLiteral index)
  | .null => pure (.value .null, .value .null)

def sealValue (e : Expr Nat) : Seal (Expr Nat × Expr Nat) :=
  match Operand.ofExpr? e with
  | some operand => g.sealOperand operand
  | none => Seal.fail .unsupportedValue

def isDerivedTarget (a : Assignment Nat) : Bool :=
  match a.target with
  | .column name => name.getLast?.any g.active.isDerived
  | .tuple _ => false

def assigned? (a : Assignment Nat) : Option SensitiveColumn :=
  match a.target with
  | .column name => name.getLast?.bind g.active.get?
  | .tuple _ => none

end Sealing

def renameLast (text : String) : Name → Name
  | [] => []
  | [ident] => [{ ident with text := text }]
  | ident :: rest => ident :: renameLast text rest

def Sql.Target.rename (text : String) : Target → Target
  | .column name => .column (renameLast text name)
  | t => t

namespace Sealing

variable (g : Sealing)

/-- The column of an assignment that is to be expanded; one whose value is not understood is
logged and left. -/
def assignmentSlot (a : Assignment Nat) : Seal (Option SensitiveColumn) :=
  match g.assigned? a with
  | none => pure none
  | some column =>
    if (Operand.ofExpr? a.value).isSome then pure (some column)
    else do
      Seal.note .assignmentSkipped
      return none

def sealAssignment (column : SensitiveColumn) (a : Assignment Nat) :
    Seal (Assignment Nat × Assignment Nat) := do
  let (target, index) ← g.sealValue a.value
  return (⟨a.target.rename column.target, target⟩, ⟨a.target.rename column.index, index⟩)

def sealAssignments (assignments : List (Assignment Nat)) : Seal (List (Assignment Nat)) := do
  if assignments.any g.isDerivedTarget then
    Seal.note .assignmentsDerived
    return assignments
  else
    let slots ← assignments.mapM g.assignmentSlot
    expand g.options.writeSource g.sealAssignment (assignments.zip slots)

def isSupportedAt (rows : List (List (Expr Nat))) (position : Nat) : Bool :=
  rows.all fun row => (row[position]?.bind Operand.ofExpr?).isSome

/-- The sensitive column at a position of the column list, if every row lets it be expanded. -/
def columnSlot (rows : List (List (Expr Nat))) (position : Nat) (ident : Ident) :
    Seal (Option SensitiveColumn) :=
  match g.active.get? ident with
  | none => pure none
  | some column =>
    if isSupportedAt rows position then pure (some column)
    else do
      Seal.note .columnSkipped
      return none

def sealRow (slots : List (Option SensitiveColumn)) (row : List (Expr Nat)) :
    Seal (List (Expr Nat)) :=
  expand g.options.writeSource (fun _ e => g.sealValue e) (row.zip slots)

def renamedPair (column : SensitiveColumn) (ident : Ident) : Ident × Ident :=
  ({ ident with text := column.target }, { ident with text := column.index })

def expandColumns (columns : List Ident) (slots : List (Option SensitiveColumn)) : List Ident :=
  Id.run (expand g.options.writeSource (fun c i => pure (renamedPair c i)) (columns.zip slots))

def rowsOf? (source : Option (Query Nat)) : Option (List (List (Expr Nat))) :=
  match source with
  | some ⟨_, _, .values _ rows, _⟩ => some rows
  | _ => none

def withRows (rows : List (List (Expr Nat))) (source : Option (Query Nat)) :
    Option (Query Nat) :=
  match source with
  | some ⟨recursive, ctes, .values rowWord _, clauses⟩ =>
    some ⟨recursive, ctes, .values rowWord rows, clauses⟩
  | _ => source

def sealInsertRows (insert : Insert Nat) (rows : List (List (Expr Nat))) : Seal (Insert Nat) := do
  let slots ← insert.columns.zipIdx.mapM fun (ident, position) => g.columnSlot rows position ident
  let rows ← rows.mapM (g.sealRow slots)
  return { insert with
    columns := g.expandColumns insert.columns slots
    source := withRows rows insert.source }

/-- An INSERT without column list writes by assignments. -/
def sealInsert (insert : Insert Nat) : Seal (Insert Nat) := do
  if insert.columns.isEmpty then
    let assignments ← g.sealAssignments insert.assignments
    return { insert with assignments := assignments }
  else if insert.columns.any g.active.isDerived then
    Seal.note .insertDerived
    return insert
  else if insert.columns.all fun ident => (g.active.get? ident).isNone then
    return insert
  else
    match rowsOf? insert.source with
    | none =>
      Seal.note .insertSource
      return insert
    | some rows =>
      if rows.any fun row => row.length != insert.columns.length then
        Seal.note .insertWidth
        return insert
      else g.sealInsertRows insert rows

end Sealing

end SealedColumns
