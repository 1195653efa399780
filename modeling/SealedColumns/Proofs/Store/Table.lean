import SealedColumns.Proofs.Run
import SealedColumns.Proofs.Store.Binding
import SealedColumns.Sql.Text

/-!
A store with a single table that records the rows it is given, and gives out the ones that meet a
condition. It compares values by their texts; a comparison with null is unknown.
-/
namespace SealedColumns.Store

open Sql

abbrev Row := Members Json

abbrev Table := List Row

def cellOf (row : Row) (column : String) : Json := (Members.get? column row).getD .null

abbrev Truth := Option Bool

namespace Truth

def not (t : Truth) : Truth := t.map Bool.not

def and : Truth → Truth → Truth
  | some false, _ => some false
  | _, some false => some false
  | some true, some true => some true
  | _, _ => none

def or : Truth → Truth → Truth
  | some true, _ => some true
  | _, some true => some true
  | some false, some false => some false
  | _, _ => none

def any (ts : List Truth) : Truth := ts.foldr or (some false)

def negatedIf (negated : Bool) (t : Truth) : Truth := if negated then t.not else t

end Truth

def sameText (a b : Json) : Truth :=
  match a.plain?, b.plain? with
  | some (some s), some (some t) => some (decide (s = t))
  | _, _ => none

def isNull : Json → Bool
  | .null => true
  | _ => false

def Atom.holds (row : Row) : Atom Json → Truth
  | .equal negated _ column value => .negatedIf negated (sameText (cellOf row column) value)
  | .among negated column values =>
    .negatedIf negated (.any (values.map (sameText (cellOf row column))))
  | .isNull negated column => some (Store.isNull (cellOf row column) != negated)

def Condition.holds {α : Type} (truth : α → Truth) : Condition α → Truth
  | .atom a => truth a
  | .nested c => c.holds truth
  | .not c => (c.holds truth).not
  | .and l r => (l.holds truth).and (r.holds truth)
  | .or l r => (l.holds truth).or (r.holds truth)

/-- A row is given out only if the condition is true of it. -/
def meets (condition : Option (Condition (Atom Json))) (row : Row) : Bool :=
  match condition with
  | none => true
  | some c => c.holds (Atom.holds row) == some true

def project (items : List Item) (row : Row) : Json :=
  .object (Members.ofList (items.map fun item => (item.output, cellOf row item.column)))

def Request.run : Request Json → Table → Table × QueryResult
  | .insert _ columns rows, table =>
    (table ++ rows.map columns.zip, .scalar (.ofNat rows.length))
  | .select items condition, table =>
    (table, .rows ((table.filter (meets condition)).map (project items)))

def valuesOf (bound : BoundStatement) : List Json :=
  bound.mappings.map (Parameters.ofBound bound).valueOf

/-- Carries out a statement as the request that its text makes to the table with this name. -/
def execute (d : Dialect) (name : String) (bound : BoundStatement) (table : Table) :
    Option (Table × QueryResult) := do
  let tree ← (Statement.parse d bound.sql).toOption
  let request ← Request.ofStatement? name tree
  if tree.countAnonymous = bound.mappings.length then
    some ((request.bind (valuesOf bound)).run table)
  else none

end SealedColumns.Store
