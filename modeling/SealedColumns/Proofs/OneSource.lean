import SealedColumns.Proofs.Parsing
import SealedColumns.Sql.Walk

/-!
What is true of every statement that is read, shown along the runs of the parser: an INSERT takes
its values from rows or from assignments, never from both.
-/
namespace SealedColumns.Sql

/-- An INSERT takes its values from rows or from assignments. -/
def Insert.OneSource {ν : Type} (x : Insert ν) : Prop := x.source = none ∨ x.assignments = []

def Statement.OneSource {ν : Type} : Statement ν → Prop
  | .insert x => x.OneSource
  | _ => True

theorem Statement.OneSource.walk {ν μ σ : Type} {v : Visitor ν μ σ} {t : Statement ν}
    (one : t.OneSource) {s : σ} : (t.walk v s).1.OneSource := by
  cases t with
  | insert x =>
    obtain ⟨verb, table, label, columns, source, assignments, rowAlias, conflict, updates,
      updateFilter, clauses⟩ := x
    rcases one with none | none
    · cases none
      exact .inl rfl
    · cases none
      exact .inr rfl
  | _ => trivial

open Parse

theorem parseInsert_oneSource (g : Nested) (replace : Bool) (resolution : Option String) :
    (parseInsert g replace resolution).Returns Insert.OneSource := by
  unfold parseInsert
  simp only [pure_bind]
  repeat' first
    | with_reducible refine leaves_bind fun _ => ?_
    | split
    | exact leaves_pure fun _ => .inl rfl
    | exact leaves_pure fun _ => .inr rfl

theorem oneSource_of_parse {d : Dialect} {sql : String} {t : Statement}
    (parsed : Statement.parse d sql = .ok t) : t.OneSource :=
  of_parse (parseStatement_each (parseInsert_oneSource _) (fun _ _ _ _ => trivial)
    (fun _ => trivial) (fun _ => trivial) (fun _ _ => trivial) fun _ _ _ _ => trivial) parsed

end SealedColumns.Sql
