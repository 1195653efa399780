import SealedColumns.Sql.Walk

/-!
The flat view of a tree: the values and table names that a walk meets, in its order. A walk rebuilds
the tree around what its visitor makes of that list, so facts about walks are facts about lists.
-/
namespace SealedColumns.Sql

inductive Visit (ν : Type) where
  | value (value : Value ν)
  | table (name : Name)

variable {ν μ : Type}

mutual

def Expr.visits : Expr ν → List (Visit ν)
  | .column _ _ => []
  | .value x => [.value x]
  | .nested e => e.visits
  | .unary _ e => e.visits
  | .isNull _ e => e.visits
  | .binary l _ r => l.visits ++ r.visits
  | .pattern _ _ e p _ => e.visits ++ p.visits
  | .inList _ e items => e.visits ++ visitsAll items
  | .inQuery _ e q => e.visits ++ q.visits
  | .call _ _ args clauses tail => visitsAll args ++ visitsAll clauses ++ visitsAll tail
  | .argument _ _ e => e.visits
  | .star _ => []
  | .existence _ q => q.visits
  | .subquery q => q.visits
  | .framed _ es => visitsAll es

def visitsAll : List (Expr ν) → List (Visit ν)
  | [] => []
  | e :: es => e.visits ++ visitsAll es

def visitsOption : Option (Expr ν) → List (Visit ν)
  | none => []
  | some e => e.visits

def visitsRows : List (List (Expr ν)) → List (Visit ν)
  | [] => []
  | row :: rows => visitsAll row ++ visitsRows rows

def SelectItem.visits : SelectItem ν → List (Visit ν)
  | ⟨e, _⟩ => e.visits

def visitsItems : List (SelectItem ν) → List (Visit ν)
  | [] => []
  | item :: items => item.visits ++ visitsItems items

def Assignment.visits : Assignment ν → List (Visit ν)
  | ⟨_, e⟩ => e.visits

def visitsAssignments : List (Assignment ν) → List (Visit ν)
  | [] => []
  | a :: rest => a.visits ++ visitsAssignments rest

def TableFactor.visits : TableFactor ν → List (Visit ν)
  | .table name _ args _ => .table name :: visitsAll args
  | .derived _ q _ => q.visits
  | .nested item _ => item.visits

def Join.visits : Join ν → List (Visit ν)
  | ⟨_, _, relation, condition, _⟩ => relation.visits ++ visitsOption condition

def visitsJoins : List (Join ν) → List (Visit ν)
  | [] => []
  | j :: js => j.visits ++ visitsJoins js

def FromItem.visits : FromItem ν → List (Visit ν)
  | ⟨relation, joins⟩ => relation.visits ++ visitsJoins joins

def visitsSources : List (FromItem ν) → List (Visit ν)
  | [] => []
  | item :: items => item.visits ++ visitsSources items

def Select.visits : Select ν → List (Visit ν)
  | ⟨_, quantifiers, projection, sources, filter, clauses⟩ =>
    visitsAll quantifiers ++ visitsItems projection ++ visitsSources sources ++
      visitsOption filter ++ visitsAll clauses

def SetExpr.visits : SetExpr ν → List (Visit ν)
  | .select x => x.visits
  | .query q => q.visits
  | .operation _ _ l r => l.visits ++ r.visits
  | .values _ rows => visitsRows rows
  | .insert x => x.visits
  | .update x => x.visits
  | .delete x => x.visits

def Cte.visits : Cte ν → List (Visit ν)
  | ⟨_, _, _, q⟩ => q.visits

def visitsCtes : List (Cte ν) → List (Visit ν)
  | [] => []
  | c :: cs => c.visits ++ visitsCtes cs

def Query.visits : Query ν → List (Visit ν)
  | ⟨_, ctes, body, clauses⟩ => visitsCtes ctes ++ body.visits ++ visitsAll clauses

def visitsQuery? : Option (Query ν) → List (Visit ν)
  | none => []
  | some q => q.visits

def Insert.visits : Insert ν → List (Visit ν)
  | ⟨_, table, _, _, source, assignments, _, _, updates, updateFilter, clauses⟩ =>
    .table table :: (visitsQuery? source ++ visitsAssignments assignments ++
      visitsAssignments updates ++ visitsOption updateFilter ++ visitsAll clauses)

def Update.visits : Update ν → List (Visit ν)
  | ⟨_, target, _, assignments, sources, filter, clauses⟩ =>
    target.visits ++ visitsAssignments assignments ++ visitsSources sources ++
      visitsOption filter ++ visitsAll clauses

def Delete.visits : Delete ν → List (Visit ν)
  | ⟨_, _, sources, usingSources, filter, clauses⟩ =>
    visitsSources sources ++ visitsSources usingSources ++ visitsOption filter ++
      visitsAll clauses

end

def Statement.visits : Statement ν → List (Visit ν)
  | .query q => q.visits
  | .insert x => x.visits
  | .update x => x.visits
  | .delete x => x.visits
  | .explain _ statement => statement.visits
  | .other tables _ operands q => tables.map .table ++ visitsAll operands ++ visitsQuery? q

namespace Visitor

variable {σ : Type} (v : Visitor ν μ σ)

/-- A visitor along a list of visits. -/
def pass : List (Visit ν) → σ → List (Visit μ) × σ
  | [], s => ([], s)
  | .value x :: rest, s =>
    let after := pass rest (v.value x s).2
    (.value (v.value x s).1 :: after.1, after.2)
  | .table name :: rest, s =>
    let after := pass rest (v.table name s)
    (.table name :: after.1, after.2)

theorem pass_append (xs ys : List (Visit ν)) (s : σ) :
    v.pass (xs ++ ys) s =
      ((v.pass xs s).1 ++ (v.pass ys (v.pass xs s).2).1, (v.pass ys (v.pass xs s).2).2) := by
  induction xs generalizing s with
  | nil => rfl
  | cons x xs ih => cases x <;> simp [pass, ih]

theorem pass_tables (tables : List Name) (s : σ) :
    v.pass (tables.map .table) s =
      (tables.map .table, tables.foldl (fun s t => v.table t s) s) := by
  induction tables generalizing s with
  | nil => rfl
  | cons name rest ih => simp [pass, ih]

end Visitor

section

variable {σ : Type} (v : Visitor ν μ σ)

open Visitor

-- A walk of any part gives the part with the visits that the pass gives, and the same state.
mutual

theorem Expr.visits_walk : ∀ (e : Expr ν) (s : σ),
    ((e.walk v s).1.visits, (e.walk v s).2) = v.pass e.visits s
  | .column _ _, s => rfl
  | .value x, s => rfl
  | .nested e, s => by
    simpa only [Expr.walk, Expr.visits] using e.visits_walk s
  | .unary _ e, s => by
    simpa only [Expr.walk, Expr.visits] using e.visits_walk s
  | .isNull _ e, s => by
    simpa only [Expr.walk, Expr.visits] using e.visits_walk s
  | .binary l _ r, s => by
    simp only [Expr.walk, Expr.visits, pass_append, ← l.visits_walk s, ← r.visits_walk]
  | .pattern _ _ e p _, s => by
    simp only [Expr.walk, Expr.visits, pass_append, ← e.visits_walk s, ← p.visits_walk]
  | .inList _ e items, s => by
    simp only [Expr.walk, Expr.visits, pass_append, ← e.visits_walk s, ← visits_walkExprs items]
  | .inQuery _ e q, s => by
    simp only [Expr.walk, Expr.visits, pass_append, ← e.visits_walk s, ← q.visits_walk]
  | .call _ _ args clauses tail, s => by
    simp only [Expr.walk, Expr.visits, pass_append, ← visits_walkExprs args,
      ← visits_walkExprs clauses, ← visits_walkExprs tail]
  | .argument _ _ e, s => by
    simpa only [Expr.walk, Expr.visits] using e.visits_walk s
  | .star _, s => rfl
  | .existence _ q, s => by
    simpa only [Expr.walk, Expr.visits] using q.visits_walk s
  | .subquery q, s => by
    simpa only [Expr.walk, Expr.visits] using q.visits_walk s
  | .framed _ es, s => by
    simpa only [Expr.walk, Expr.visits] using visits_walkExprs es s

theorem visits_walkExprs : ∀ (es : List (Expr ν)) (s : σ),
    (visitsAll (walkExprs v es s).1, (walkExprs v es s).2) = v.pass (visitsAll es) s
  | [], s => rfl
  | e :: es, s => by
    simp only [walkExprs, visitsAll, pass_append, ← e.visits_walk s, ← visits_walkExprs es]

theorem visits_walkOption : ∀ (e : Option (Expr ν)) (s : σ),
    (visitsOption (walkOption v e s).1, (walkOption v e s).2) = v.pass (visitsOption e) s
  | none, s => rfl
  | some e, s => by
    simpa only [walkOption, visitsOption] using e.visits_walk s

theorem visits_walkRows : ∀ (rows : List (List (Expr ν))) (s : σ),
    (visitsRows (walkRows v rows s).1, (walkRows v rows s).2) = v.pass (visitsRows rows) s
  | [], s => rfl
  | row :: rows, s => by
    simp only [walkRows, visitsRows, pass_append, ← visits_walkExprs row s, ← visits_walkRows rows]

theorem SelectItem.visits_walk : ∀ (item : SelectItem ν) (s : σ),
    ((item.walk v s).1.visits, (item.walk v s).2) = v.pass item.visits s
  | ⟨e, _⟩, s => by
    simpa only [SelectItem.walk, SelectItem.visits] using e.visits_walk s

theorem visits_walkItems : ∀ (items : List (SelectItem ν)) (s : σ),
    (visitsItems (walkItems v items s).1, (walkItems v items s).2) = v.pass (visitsItems items) s
  | [], s => rfl
  | item :: items, s => by
    simp only [walkItems, visitsItems, pass_append, ← item.visits_walk s, ← visits_walkItems items]

theorem Assignment.visits_walk : ∀ (a : Assignment ν) (s : σ),
    ((a.walk v s).1.visits, (a.walk v s).2) = v.pass a.visits s
  | ⟨_, e⟩, s => by
    simpa only [Assignment.walk, Assignment.visits] using e.visits_walk s

theorem visits_walkAssignments : ∀ (as : List (Assignment ν)) (s : σ),
    (visitsAssignments (walkAssignments v as s).1, (walkAssignments v as s).2) =
      v.pass (visitsAssignments as) s
  | [], s => rfl
  | a :: rest, s => by
    simp only [walkAssignments, visitsAssignments, pass_append, ← a.visits_walk s,
      ← visits_walkAssignments rest]

theorem TableFactor.visits_walk : ∀ (factor : TableFactor ν) (s : σ),
    ((factor.walk v s).1.visits, (factor.walk v s).2) = v.pass factor.visits s
  | .table name _ args _, s => by
    simp only [TableFactor.walk, TableFactor.visits, Visitor.pass, ← visits_walkExprs args]
  | .derived _ q _, s => by
    simpa only [TableFactor.walk, TableFactor.visits] using q.visits_walk s
  | .nested item _, s => by
    simpa only [TableFactor.walk, TableFactor.visits] using item.visits_walk s

theorem Join.visits_walk : ∀ (j : Join ν) (s : σ),
    ((j.walk v s).1.visits, (j.walk v s).2) = v.pass j.visits s
  | ⟨_, _, relation, condition, _⟩, s => by
    simp only [Join.walk, Join.visits, pass_append, ← relation.visits_walk s,
      ← visits_walkOption condition]

theorem visits_walkJoins : ∀ (js : List (Join ν)) (s : σ),
    (visitsJoins (walkJoins v js s).1, (walkJoins v js s).2) = v.pass (visitsJoins js) s
  | [], s => rfl
  | j :: js, s => by
    simp only [walkJoins, visitsJoins, pass_append, ← j.visits_walk s, ← visits_walkJoins js]

theorem FromItem.visits_walk : ∀ (item : FromItem ν) (s : σ),
    ((item.walk v s).1.visits, (item.walk v s).2) = v.pass item.visits s
  | ⟨relation, joins⟩, s => by
    simp only [FromItem.walk, FromItem.visits, pass_append, ← relation.visits_walk s,
      ← visits_walkJoins joins]

theorem visits_walkSources : ∀ (items : List (FromItem ν)) (s : σ),
    (visitsSources (walkSources v items s).1, (walkSources v items s).2) =
      v.pass (visitsSources items) s
  | [], s => rfl
  | item :: items, s => by
    simp only [walkSources, visitsSources, pass_append, ← item.visits_walk s,
      ← visits_walkSources items]

theorem Select.visits_walk : ∀ (x : Select ν) (s : σ),
    ((x.walk v s).1.visits, (x.walk v s).2) = v.pass x.visits s
  | ⟨_, quantifiers, projection, sources, filter, clauses⟩, s => by
    simp only [Select.walk, Select.visits, pass_append, ← visits_walkExprs quantifiers,
      ← visits_walkItems projection, ← visits_walkSources sources, ← visits_walkOption filter,
      ← visits_walkExprs clauses]

theorem SetExpr.visits_walk : ∀ (body : SetExpr ν) (s : σ),
    ((body.walk v s).1.visits, (body.walk v s).2) = v.pass body.visits s
  | .select x, s => by
    simpa only [SetExpr.walk, SetExpr.visits] using x.visits_walk s
  | .query q, s => by
    simpa only [SetExpr.walk, SetExpr.visits] using q.visits_walk s
  | .operation _ _ l r, s => by
    simp only [SetExpr.walk, SetExpr.visits, pass_append, ← l.visits_walk s, ← r.visits_walk]
  | .values _ rows, s => by
    simpa only [SetExpr.walk, SetExpr.visits] using visits_walkRows rows s
  | .insert x, s => by
    simpa only [SetExpr.walk, SetExpr.visits] using x.visits_walk s
  | .update x, s => by
    simpa only [SetExpr.walk, SetExpr.visits] using x.visits_walk s
  | .delete x, s => by
    simpa only [SetExpr.walk, SetExpr.visits] using x.visits_walk s

theorem Cte.visits_walk : ∀ (c : Cte ν) (s : σ),
    ((c.walk v s).1.visits, (c.walk v s).2) = v.pass c.visits s
  | ⟨_, _, _, q⟩, s => by
    simpa only [Cte.walk, Cte.visits] using q.visits_walk s

theorem visits_walkCtes : ∀ (cs : List (Cte ν)) (s : σ),
    (visitsCtes (walkCtes v cs s).1, (walkCtes v cs s).2) = v.pass (visitsCtes cs) s
  | [], s => rfl
  | c :: cs, s => by
    simp only [walkCtes, visitsCtes, pass_append, ← c.visits_walk s, ← visits_walkCtes cs]

theorem Query.visits_walk : ∀ (q : Query ν) (s : σ),
    ((q.walk v s).1.visits, (q.walk v s).2) = v.pass q.visits s
  | ⟨_, ctes, body, clauses⟩, s => by
    simp only [Query.walk, Query.visits, pass_append, ← visits_walkCtes ctes,
      ← body.visits_walk, ← visits_walkExprs clauses]

theorem visits_walkQuery? : ∀ (q : Option (Query ν)) (s : σ),
    (visitsQuery? (walkQuery? v q s).1, (walkQuery? v q s).2) = v.pass (visitsQuery? q) s
  | none, s => rfl
  | some q, s => by
    simpa only [walkQuery?, visitsQuery?] using q.visits_walk s

theorem Insert.visits_walk : ∀ (x : Insert ν) (s : σ),
    ((x.walk v s).1.visits, (x.walk v s).2) = v.pass x.visits s
  | ⟨_, table, _, _, source, assignments, _, _, updates, updateFilter, clauses⟩, s => by
    simp only [Insert.walk, Insert.visits, Visitor.pass, pass_append,
      ← visits_walkQuery? source,
      ← visits_walkAssignments assignments, ← visits_walkAssignments updates,
      ← visits_walkOption updateFilter, ← visits_walkExprs clauses]

theorem Update.visits_walk : ∀ (x : Update ν) (s : σ),
    ((x.walk v s).1.visits, (x.walk v s).2) = v.pass x.visits s
  | ⟨_, target, _, assignments, sources, filter, clauses⟩, s => by
    simp only [Update.walk, Update.visits, pass_append, ← target.visits_walk s,
      ← visits_walkAssignments assignments, ← visits_walkSources sources,
      ← visits_walkOption filter, ← visits_walkExprs clauses]

theorem Delete.visits_walk : ∀ (x : Delete ν) (s : σ),
    ((x.walk v s).1.visits, (x.walk v s).2) = v.pass x.visits s
  | ⟨_, _, sources, usingSources, filter, clauses⟩, s => by
    simp only [Delete.walk, Delete.visits, pass_append, ← visits_walkSources sources,
      ← visits_walkSources usingSources, ← visits_walkOption filter, ← visits_walkExprs clauses]

end

theorem Statement.visits_walk (t : Statement ν) (s : σ) :
    ((t.walk v s).1.visits, (t.walk v s).2) = v.pass t.visits s := by
  induction t with
  | query q => simpa only [Statement.walk, Statement.visits] using q.visits_walk v s
  | insert x => simpa only [Statement.walk, Statement.visits] using x.visits_walk v s
  | update x => simpa only [Statement.walk, Statement.visits] using x.visits_walk v s
  | delete x => simpa only [Statement.walk, Statement.visits] using x.visits_walk v s
  | explain _ t ih => simpa only [Statement.walk, Statement.visits] using ih
  | other tables _ operands q =>
    simp only [Statement.walk, Statement.visits, pass_append, pass_tables,
      ← visits_walkExprs v operands, ← visits_walkQuery? v q]

end

end SealedColumns.Sql
