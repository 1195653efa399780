import SealedColumns.Proofs.Rewalk
import SealedColumns.Proofs.Target

/-!
What a pass looks at to decide what it seals: the column names that it looks up, the columns that
are written, and which of the written values it understands. Numbering and restoring placeholders
leave all of this as it is.
-/
namespace SealedColumns

namespace Sql

variable {ν μ σ : Type}

mutual

/-- The names that sealing a predicate looks up. -/
def Expr.reached : Expr ν → List Ident
  | .column _ name => [name]
  | .nested e => e.reached
  | .unary _ e => e.reached
  | .isNull _ e => e.reached
  | .binary l _ r => l.reached ++ r.reached
  | .pattern _ _ e _ _ => e.reached
  | .inList _ e _ => e.reached
  | .inQuery _ e _ => e.reached
  | .call _ _ args _ _ => reachedAll args
  | .argument _ _ e => e.reached
  | _ => []

def reachedAll : List (Expr ν) → List Ident
  | [] => []
  | e :: es => e.reached ++ reachedAll es

end

/-- A name that is looked up with the keys of a FROM clause. -/
inductive Subject where
  | projected (scope : List String) (name : Ident)
  | filtered (scope : List String) (name : Ident)
deriving DecidableEq, Repr

def itemSubjects (scope : List String) (items : List (SelectItem ν)) : List Subject :=
  items.flatMap fun item => item.expr.columnName?.toList.map (.projected scope)

def filterSubjects (scope : List String) (filter : Option (Expr ν)) : List Subject :=
  filter.toList.flatMap fun e => e.reached.map (.filtered scope)

mutual

def Query.subjects : Query ν → List Subject
  | ⟨_, ctes, body, _⟩ => ctesSubjects ctes ++ body.subjects

def ctesSubjects : List (Cte ν) → List Subject
  | [] => []
  | ⟨_, _, _, query⟩ :: ctes => query.subjects ++ ctesSubjects ctes

def SetExpr.subjects : SetExpr ν → List Subject
  | .select s => s.subjects
  | .query q => q.subjects
  | .operation _ _ l r => l.subjects ++ r.subjects
  | _ => []

def Select.subjects : Select ν → List Subject
  | ⟨_, _, projection, sources, filter, _⟩ =>
    itemSubjects (scopeOf sources) projection ++ sourcesSubjects sources ++
      filterSubjects (scopeOf sources) filter

def sourcesSubjects : List (FromItem ν) → List Subject
  | [] => []
  | item :: items => item.subjects ++ sourcesSubjects items

def FromItem.subjects : FromItem ν → List Subject
  | ⟨relation, joins⟩ => relation.subjects ++ joinsSubjects joins

def joinsSubjects : List (Join ν) → List Subject
  | [] => []
  | ⟨_, _, relation, _, _⟩ :: joins => relation.subjects ++ joinsSubjects joins

def TableFactor.subjects : TableFactor ν → List Subject
  | .derived _ query _ => query.subjects
  | .nested item _ => item.subjects
  | _ => []

end

/-- The values that sealing understands once their placeholders are numbered. -/
def Value.isSealable : Value ν → Bool
  | .placeholder .anonymous | .placeholder (.numbered _) => true
  | .string _ | .number _ _ | .null => true
  | _ => false

def Expr.isSealable : Expr ν → Bool
  | .value x => x.isSealable
  | _ => false

def rowsProfile (rows : List (List (Expr ν))) : List (List Bool) :=
  rows.map fun row => row.map Expr.isSealable

def Query.profile? : Query ν → Option (List (List Bool))
  | ⟨_, _, .values _ rows, _⟩ => some (rowsProfile rows)
  | _ => none

def assignmentsProfile (as : List (Assignment ν)) : List (Option Ident × Bool) :=
  as.map fun a => (a.target.column?, a.value.isSealable)

inductive Outline where
  | insert (columns : List Ident) (rows : Option (List (List Bool)))
    (assignments : List (Option Ident × Bool))
  | update (assignments : List (Option Ident × Bool)) (subjects : List Subject)
  | delete (subjects : List Subject)
  | query (subjects : List Subject)
  | passed
deriving DecidableEq, Repr

def Statement.outline : Statement ν → Outline
  | .insert x => .insert x.columns (x.source.bind Query.profile?) (assignmentsProfile x.assignments)
  | .update x => .update (assignmentsProfile x.assignments) (filterSubjects [] x.filter)
  | .delete x => .delete (filterSubjects [] x.filter)
  | .query q => .query q.subjects
  | .explain _ _ => .passed
  | .other _ _ _ _ => .passed

/-- A visitor that turns no value that sealing understands into another, or the other way round. -/
def Visitor.Steady (v : Visitor ν μ σ) : Prop :=
  ∀ x s, (v.value x s).1.isSealable = x.isSealable

section Walks

variable (v : Visitor ν μ σ)

theorem Expr.columnName?_walk (e : Expr ν) (s : σ) :
    (e.walk v s).1.columnName? = e.columnName? := by
  cases e <;> rfl

mutual

theorem Expr.reached_walk : ∀ (e : Expr ν) (s : σ), (e.walk v s).1.reached = e.reached
  | .nested e, s | .unary _ e, s | .isNull _ e, s | .argument _ _ e, s => by
    simp only [Expr.walk, Expr.reached, e.reached_walk]
  | .binary l _ r, s => by
    simp only [Expr.walk, Expr.reached, l.reached_walk, r.reached_walk]
  | .pattern _ _ e _ _, s | .inList _ e _, s | .inQuery _ e _, s => by
    simp only [Expr.walk, Expr.reached, e.reached_walk]
  | .call _ _ args _ _, s => by
    simp only [Expr.walk, Expr.reached, reachedAll_walk args]
  | .column _ _, s | .value _, s | .star _, s | .existence _ _, s | .subquery _, s
  | .framed _ _, s => rfl

theorem reachedAll_walk : ∀ (es : List (Expr ν)) (s : σ),
    reachedAll (walkExprs v es s).1 = reachedAll es
  | [], s => rfl
  | e :: es, s => by
    simp only [walkExprs, reachedAll, e.reached_walk, reachedAll_walk es]

end

theorem itemSubjects_walk (scope : List String) (items : List (SelectItem ν)) (s : σ) :
    itemSubjects scope (walkItems v items s).1 = itemSubjects scope items := by
  induction items generalizing s with
  | nil => rfl
  | cons item items ih =>
    obtain ⟨e, label⟩ := item
    have rest := ih (e.walk v s).2
    simp only [itemSubjects] at rest
    simp only [walkItems, SelectItem.walk, itemSubjects, List.flatMap_cons, rest,
      Expr.columnName?_walk]

theorem filterSubjects_walk (scope : List String) (filter : Option (Expr ν)) (s : σ) :
    filterSubjects scope (walkOption v filter s).1 = filterSubjects scope filter := by
  cases filter with
  | none => rfl
  | some e => simp only [walkOption, filterSubjects, Option.toList_some, List.flatMap_singleton,
      e.reached_walk]

mutual

theorem TableFactor.baseTables_walk : ∀ (factor : TableFactor ν) (s : σ),
    (factor.walk v s).1.baseTables = factor.baseTables
  | .table _ _ _ _, s | .derived _ _ _, s => rfl
  | .nested item _, s => by
    simp only [TableFactor.walk, TableFactor.baseTables, item.baseTables_walk]

theorem joinTables_walk : ∀ (joins : List (Join ν)) (s : σ),
    joinTables (walkJoins v joins s).1 = joinTables joins
  | [], s => rfl
  | ⟨_, _, relation, _, _⟩ :: joins, s => by
    simp only [walkJoins, Join.walk, joinTables, relation.baseTables_walk, joinTables_walk joins]

theorem FromItem.baseTables_walk : ∀ (item : FromItem ν) (s : σ),
    (item.walk v s).1.baseTables = item.baseTables
  | ⟨relation, joins⟩, s => by
    simp only [FromItem.walk, FromItem.baseTables, relation.baseTables_walk,
      joinTables_walk joins]

end

theorem scopeOf_walk (sources : List (FromItem ν)) (s : σ) :
    scopeOf (walkSources v sources s).1 = scopeOf sources := by
  have tables : baseTables (walkSources v sources s).1 = baseTables sources := by
    induction sources generalizing s with
    | nil => rfl
    | cons item items ih =>
      have rest := ih (item.walk v s).2
      simp only [baseTables] at rest
      simp only [walkSources, baseTables, List.flatMap_cons, item.baseTables_walk, rest]
  rw [scopeOf, tables, scopeOf]

mutual

theorem Query.subjects_walk : ∀ (q : Query ν) (s : σ), (q.walk v s).1.subjects = q.subjects
  | ⟨_, ctes, body, _⟩, s => by
    simp only [Query.walk, Query.subjects, ctesSubjects_walk ctes, body.subjects_walk]

theorem ctesSubjects_walk : ∀ (ctes : List (Cte ν)) (s : σ),
    ctesSubjects (walkCtes v ctes s).1 = ctesSubjects ctes
  | [], s => rfl
  | ⟨_, _, _, query⟩ :: ctes, s => by
    simp only [walkCtes, Cte.walk, ctesSubjects, query.subjects_walk, ctesSubjects_walk ctes]

theorem SetExpr.subjects_walk : ∀ (body : SetExpr ν) (s : σ),
    (body.walk v s).1.subjects = body.subjects
  | .select x, s => by
    simp only [SetExpr.walk, SetExpr.subjects, x.subjects_walk]
  | .query q, s => by
    simp only [SetExpr.walk, SetExpr.subjects, q.subjects_walk]
  | .operation _ _ l r, s => by
    simp only [SetExpr.walk, SetExpr.subjects, l.subjects_walk, r.subjects_walk]
  | .values _ _, s | .insert _, s | .update _, s | .delete _, s => rfl

theorem Select.subjects_walk : ∀ (x : Select ν) (s : σ), (x.walk v s).1.subjects = x.subjects
  | ⟨_, _, projection, sources, filter, _⟩, s => by
    simp only [Select.walk, Select.subjects, scopeOf_walk, itemSubjects_walk,
      sourcesSubjects_walk sources, filterSubjects_walk]

theorem sourcesSubjects_walk : ∀ (items : List (FromItem ν)) (s : σ),
    sourcesSubjects (walkSources v items s).1 = sourcesSubjects items
  | [], s => rfl
  | item :: items, s => by
    simp only [walkSources, sourcesSubjects, item.subjects_walk, sourcesSubjects_walk items]

theorem FromItem.subjects_walk : ∀ (item : FromItem ν) (s : σ),
    (item.walk v s).1.subjects = item.subjects
  | ⟨relation, joins⟩, s => by
    simp only [FromItem.walk, FromItem.subjects, relation.subjects_walk,
      joinsSubjects_walk joins]

theorem joinsSubjects_walk : ∀ (joins : List (Join ν)) (s : σ),
    joinsSubjects (walkJoins v joins s).1 = joinsSubjects joins
  | [], s => rfl
  | ⟨_, _, relation, _, _⟩ :: joins, s => by
    simp only [walkJoins, Join.walk, joinsSubjects, relation.subjects_walk,
      joinsSubjects_walk joins]

theorem TableFactor.subjects_walk : ∀ (factor : TableFactor ν) (s : σ),
    (factor.walk v s).1.subjects = factor.subjects
  | .table _ _ _ _, s => rfl
  | .derived _ query _, s => by
    simp only [TableFactor.walk, TableFactor.subjects, query.subjects_walk]
  | .nested item _, s => by
    simp only [TableFactor.walk, TableFactor.subjects, item.subjects_walk]

end

variable {v}

theorem Expr.isSealable_walk (steady : v.Steady) (e : Expr ν) (s : σ) :
    (e.walk v s).1.isSealable = e.isSealable := by
  cases e with
  | value x => exact steady x s
  | _ => rfl

theorem rowProfile_walk (steady : v.Steady) (es : List (Expr ν)) (s : σ) :
    (walkExprs v es s).1.map Expr.isSealable = es.map Expr.isSealable := by
  induction es generalizing s with
  | nil => rfl
  | cons e es ih => simp only [walkExprs, List.map_cons, e.isSealable_walk steady, ih]

theorem rowsProfile_walk (steady : v.Steady) (rows : List (List (Expr ν))) (s : σ) :
    rowsProfile (walkRows v rows s).1 = rowsProfile rows := by
  induction rows generalizing s with
  | nil => rfl
  | cons row rows ih =>
    have rest := ih (walkExprs v row s).2
    simp only [rowsProfile] at rest
    simp only [walkRows, rowsProfile, List.map_cons, rowProfile_walk steady, rest]

theorem Query.profile?_walk (steady : v.Steady) (q : Query ν) (s : σ) :
    (q.walk v s).1.profile? = q.profile? := by
  obtain ⟨recursive, ctes, body, clauses⟩ := q
  cases body with
  | values rowWord rows =>
    simp only [Query.walk, SetExpr.walk, Query.profile?, rowsProfile_walk steady]
  | _ => rfl

theorem sourceProfile_walk (steady : v.Steady) (source : Option (Query ν)) (s : σ) :
    (walkQuery? v source s).1.bind Query.profile? = source.bind Query.profile? := by
  cases source with
  | none => rfl
  | some q => exact q.profile?_walk steady s

theorem assignmentsProfile_walk (steady : v.Steady) (as : List (Assignment ν)) (s : σ) :
    assignmentsProfile (walkAssignments v as s).1 = assignmentsProfile as := by
  induction as generalizing s with
  | nil => rfl
  | cons a as ih =>
    obtain ⟨target, value⟩ := a
    have rest := ih (value.walk v s).2
    simp only [assignmentsProfile] at rest
    simp only [walkAssignments, Assignment.walk, assignmentsProfile, List.map_cons, rest,
      value.isSealable_walk steady]

theorem Statement.outline_walk (steady : v.Steady) (t : Statement ν) (s : σ) :
    (t.walk v s).1.outline = t.outline := by
  cases t with
  | query q => simp only [Statement.walk, Statement.outline, q.subjects_walk]
  | insert x =>
    cases x
    simp only [Statement.walk, Insert.walk, Statement.outline, sourceProfile_walk steady,
      assignmentsProfile_walk steady]
  | update x =>
    cases x
    simp only [Statement.walk, Update.walk, Statement.outline, assignmentsProfile_walk steady,
      filterSubjects_walk]
  | delete x =>
    cases x
    simp only [Statement.walk, Delete.walk, Statement.outline, filterSubjects_walk]
  | explain words t => rfl
  | other tables frame operands q => rfl

end Walks

theorem steady_numbering : numbering.Steady := by
  intro x n
  cases x with
  | placeholder mark =>
    cases mark with
    | numbered ordinal => cases ordinal
    | _ => rfl
  | _ => rfl

theorem steady_restoring : restoring.Steady := by
  intro x s
  cases x with
  | placeholder mark => cases mark <;> rfl
  | _ => rfl

theorem Statement.outline_number (t : Statement) : t.number.1.outline = t.outline :=
  t.outline_walk steady_numbering 0

theorem Statement.outline_restore (t : Statement Nat) : t.restore.outline = t.outline :=
  t.outline_walk steady_restoring ()

end Sql

end SealedColumns
