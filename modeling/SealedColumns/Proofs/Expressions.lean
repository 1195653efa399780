import Mathlib.Data.List.Forall2
import SealedColumns.Proofs.Rewalk

/-!
All expressions of a tree, those inside of other expressions and of subqueries included. They are
listed with each expression before or behind its parts. Values have no parts, so both lists have
them in the order of a walk; and a walk leaves as many expressions as it found, each of them in its
place.
-/
namespace SealedColumns.Sql

/-- Whether an expression is listed before its parts or behind them. -/
inductive Traversal where
  | preorder
  | postorder
deriving DecidableEq, Repr

variable {ν μ σ : Type}

def Traversal.around (o : Traversal) (e : Expr ν) (parts : List (Expr ν)) : List (Expr ν) :=
  match o with
  | .preorder => e :: parts
  | .postorder => parts ++ [e]

mutual

def Expr.exprs (o : Traversal) : Expr ν → List (Expr ν)
  | e@(.column _ _) | e@(.value _) | e@(.star _) => [e]
  | e@(.nested inner) | e@(.unary _ inner) | e@(.isNull _ inner) | e@(.argument _ _ inner) =>
    o.around e (inner.exprs o)
  | e@(.binary l _ r) | e@(.pattern _ _ l r _) => o.around e (l.exprs o ++ r.exprs o)
  | e@(.inList _ subject items) => o.around e (subject.exprs o ++ exprsAll o items)
  | e@(.inQuery _ subject q) => o.around e (subject.exprs o ++ q.exprs o)
  | e@(.call _ _ args clauses tail) =>
    o.around e (exprsAll o args ++ exprsAll o clauses ++ exprsAll o tail)
  | e@(.existence _ q) | e@(.subquery q) => o.around e (q.exprs o)
  | e@(.framed _ es) => o.around e (exprsAll o es)

def exprsAll (o : Traversal) : List (Expr ν) → List (Expr ν)
  | [] => []
  | e :: es => e.exprs o ++ exprsAll o es

def exprsOption (o : Traversal) : Option (Expr ν) → List (Expr ν)
  | none => []
  | some e => e.exprs o

def exprsRows (o : Traversal) : List (List (Expr ν)) → List (Expr ν)
  | [] => []
  | row :: rows => exprsAll o row ++ exprsRows o rows

def SelectItem.exprs (o : Traversal) : SelectItem ν → List (Expr ν)
  | ⟨e, _⟩ => e.exprs o

def exprsItems (o : Traversal) : List (SelectItem ν) → List (Expr ν)
  | [] => []
  | item :: items => item.exprs o ++ exprsItems o items

def Assignment.exprs (o : Traversal) : Assignment ν → List (Expr ν)
  | ⟨_, e⟩ => e.exprs o

def exprsAssignments (o : Traversal) : List (Assignment ν) → List (Expr ν)
  | [] => []
  | a :: rest => a.exprs o ++ exprsAssignments o rest

def TableFactor.exprs (o : Traversal) : TableFactor ν → List (Expr ν)
  | .table _ _ args _ => exprsAll o args
  | .derived _ q _ => q.exprs o
  | .nested item _ => item.exprs o

def Join.exprs (o : Traversal) : Join ν → List (Expr ν)
  | ⟨_, _, relation, condition, _⟩ => relation.exprs o ++ exprsOption o condition

def exprsJoins (o : Traversal) : List (Join ν) → List (Expr ν)
  | [] => []
  | j :: js => j.exprs o ++ exprsJoins o js

def FromItem.exprs (o : Traversal) : FromItem ν → List (Expr ν)
  | ⟨relation, joins⟩ => relation.exprs o ++ exprsJoins o joins

def exprsSources (o : Traversal) : List (FromItem ν) → List (Expr ν)
  | [] => []
  | item :: items => item.exprs o ++ exprsSources o items

def Select.exprs (o : Traversal) : Select ν → List (Expr ν)
  | ⟨_, quantifiers, projection, sources, filter, clauses⟩ =>
    exprsAll o quantifiers ++ exprsItems o projection ++ exprsSources o sources ++
      exprsOption o filter ++ exprsAll o clauses

def SetExpr.exprs (o : Traversal) : SetExpr ν → List (Expr ν)
  | .select x => x.exprs o
  | .query q => q.exprs o
  | .operation _ _ l r => l.exprs o ++ r.exprs o
  | .values _ rows => exprsRows o rows
  | .insert x => x.exprs o
  | .update x => x.exprs o
  | .delete x => x.exprs o

def Cte.exprs (o : Traversal) : Cte ν → List (Expr ν)
  | ⟨_, _, _, q⟩ => q.exprs o

def exprsCtes (o : Traversal) : List (Cte ν) → List (Expr ν)
  | [] => []
  | c :: cs => c.exprs o ++ exprsCtes o cs

def Query.exprs (o : Traversal) : Query ν → List (Expr ν)
  | ⟨_, ctes, body, clauses⟩ => exprsCtes o ctes ++ body.exprs o ++ exprsAll o clauses

def exprsQuery? (o : Traversal) : Option (Query ν) → List (Expr ν)
  | none => []
  | some q => q.exprs o

def Insert.exprs (o : Traversal) : Insert ν → List (Expr ν)
  | ⟨_, _, _, _, source, assignments, _, _, updates, updateFilter, clauses⟩ =>
    exprsQuery? o source ++ exprsAssignments o assignments ++ exprsAssignments o updates ++
      exprsOption o updateFilter ++ exprsAll o clauses

def Update.exprs (o : Traversal) : Update ν → List (Expr ν)
  | ⟨_, target, _, assignments, sources, filter, clauses⟩ =>
    target.exprs o ++ exprsAssignments o assignments ++ exprsSources o sources ++
      exprsOption o filter ++ exprsAll o clauses

def Delete.exprs (o : Traversal) : Delete ν → List (Expr ν)
  | ⟨_, _, sources, usingSources, filter, clauses⟩ =>
    exprsSources o sources ++ exprsSources o usingSources ++ exprsOption o filter ++
      exprsAll o clauses

end

def Statement.expressions (o : Traversal) : Statement ν → List (Expr ν)
  | .query q => q.exprs o
  | .insert x => x.exprs o
  | .update x => x.exprs o
  | .delete x => x.exprs o
  | .explain _ statement => statement.expressions o
  | .other _ _ operands q => exprsAll o operands ++ exprsQuery? o q

def Expr.value? : Expr ν → Option (Value ν)
  | .value x => some x
  | _ => none

def Visit.value? : Visit ν → Option (Value ν)
  | .value x => some x
  | .table _ => none

def valuesAmong (es : List (Expr ν)) : List (Value ν) := es.filterMap Expr.value?

def valuesMet (vs : List (Visit ν)) : List (Value ν) := vs.filterMap Visit.value?

section Values

@[simp] theorem valuesAmong_append (xs ys : List (Expr ν)) :
    valuesAmong (xs ++ ys) = valuesAmong xs ++ valuesAmong ys := List.filterMap_append

@[simp] theorem valuesMet_append (xs ys : List (Visit ν)) :
    valuesMet (xs ++ ys) = valuesMet xs ++ valuesMet ys := List.filterMap_append

@[simp] theorem valuesMet_tables (tables : List Name) :
    valuesMet (tables.map fun name => (Visit.table name : Visit ν)) = [] := by
  induction tables with
  | nil => rfl
  | cons _ rest ih => exact ih

/-- Wherever it is listed, an expression that is no value does not count. -/
theorem valuesAmong_around {e : Expr ν} (compound : e.value? = none) (o : Traversal)
    (parts : List (Expr ν)) : valuesAmong (o.around e parts) = valuesAmong parts := by
  cases o with
  | preorder => exact List.filterMap_cons_none compound
  | postorder =>
    rw [Traversal.around, valuesAmong_append]
    simp [valuesAmong, compound]

-- The values among the expressions of any part, in either order, are those that a walk meets.
mutual

theorem Expr.values_exprs (o : Traversal) : ∀ e : Expr ν,
    valuesAmong (e.exprs o) = valuesMet e.visits
  | .column _ _ | .value _ | .star _ => rfl
  | .nested e | .unary _ e | .isNull _ e | .argument _ _ e => by
    rw [Expr.exprs, valuesAmong_around rfl, e.values_exprs o, Expr.visits]
  | .binary l _ r | .pattern _ _ l r _ => by
    rw [Expr.exprs, valuesAmong_around rfl, valuesAmong_append, l.values_exprs o,
      r.values_exprs o, Expr.visits, valuesMet_append]
  | .inList _ e items => by
    rw [Expr.exprs, valuesAmong_around rfl, valuesAmong_append, e.values_exprs o,
      values_exprsAll o items, Expr.visits, valuesMet_append]
  | .inQuery _ e q => by
    rw [Expr.exprs, valuesAmong_around rfl, valuesAmong_append, e.values_exprs o,
      q.values_exprs o, Expr.visits, valuesMet_append]
  | .call _ _ args clauses tail => by
    rw [Expr.exprs, valuesAmong_around rfl, valuesAmong_append, valuesAmong_append,
      values_exprsAll o args, values_exprsAll o clauses, values_exprsAll o tail, Expr.visits,
      valuesMet_append, valuesMet_append]
  | .existence _ q | .subquery q => by
    rw [Expr.exprs, valuesAmong_around rfl, q.values_exprs o, Expr.visits]
  | .framed _ es => by
    rw [Expr.exprs, valuesAmong_around rfl, values_exprsAll o es, Expr.visits]

theorem values_exprsAll (o : Traversal) : ∀ es : List (Expr ν),
    valuesAmong (exprsAll o es) = valuesMet (visitsAll es)
  | [] => rfl
  | e :: es => by
    rw [exprsAll, valuesAmong_append, e.values_exprs o, values_exprsAll o es, visitsAll,
      valuesMet_append]

theorem values_exprsOption (o : Traversal) : ∀ e : Option (Expr ν),
    valuesAmong (exprsOption o e) = valuesMet (visitsOption e)
  | none => rfl
  | some e => e.values_exprs o

theorem values_exprsRows (o : Traversal) : ∀ rows : List (List (Expr ν)),
    valuesAmong (exprsRows o rows) = valuesMet (visitsRows rows)
  | [] => rfl
  | row :: rows => by
    rw [exprsRows, valuesAmong_append, values_exprsAll o row, values_exprsRows o rows,
      visitsRows, valuesMet_append]

theorem SelectItem.values_exprs (o : Traversal) : ∀ item : SelectItem ν,
    valuesAmong (item.exprs o) = valuesMet item.visits
  | ⟨e, _⟩ => e.values_exprs o

theorem values_exprsItems (o : Traversal) : ∀ items : List (SelectItem ν),
    valuesAmong (exprsItems o items) = valuesMet (visitsItems items)
  | [] => rfl
  | item :: items => by
    rw [exprsItems, valuesAmong_append, item.values_exprs o, values_exprsItems o items,
      visitsItems, valuesMet_append]

theorem Assignment.values_exprs (o : Traversal) : ∀ a : Assignment ν,
    valuesAmong (a.exprs o) = valuesMet a.visits
  | ⟨_, e⟩ => e.values_exprs o

theorem values_exprsAssignments (o : Traversal) : ∀ as : List (Assignment ν),
    valuesAmong (exprsAssignments o as) = valuesMet (visitsAssignments as)
  | [] => rfl
  | a :: rest => by
    rw [exprsAssignments, valuesAmong_append, a.values_exprs o, values_exprsAssignments o rest,
      visitsAssignments, valuesMet_append]

theorem TableFactor.values_exprs (o : Traversal) : ∀ factor : TableFactor ν,
    valuesAmong (factor.exprs o) = valuesMet factor.visits
  | .table _ _ args _ => values_exprsAll o args
  | .derived _ q _ => q.values_exprs o
  | .nested item _ => item.values_exprs o

theorem Join.values_exprs (o : Traversal) : ∀ j : Join ν,
    valuesAmong (j.exprs o) = valuesMet j.visits
  | ⟨_, _, relation, condition, _⟩ => by
    rw [Join.exprs, valuesAmong_append, relation.values_exprs o, values_exprsOption o condition,
      Join.visits, valuesMet_append]

theorem values_exprsJoins (o : Traversal) : ∀ js : List (Join ν),
    valuesAmong (exprsJoins o js) = valuesMet (visitsJoins js)
  | [] => rfl
  | j :: js => by
    rw [exprsJoins, valuesAmong_append, j.values_exprs o, values_exprsJoins o js, visitsJoins,
      valuesMet_append]

theorem FromItem.values_exprs (o : Traversal) : ∀ item : FromItem ν,
    valuesAmong (item.exprs o) = valuesMet item.visits
  | ⟨relation, joins⟩ => by
    rw [FromItem.exprs, valuesAmong_append, relation.values_exprs o, values_exprsJoins o joins,
      FromItem.visits, valuesMet_append]

theorem values_exprsSources (o : Traversal) : ∀ items : List (FromItem ν),
    valuesAmong (exprsSources o items) = valuesMet (visitsSources items)
  | [] => rfl
  | item :: items => by
    rw [exprsSources, valuesAmong_append, item.values_exprs o, values_exprsSources o items,
      visitsSources, valuesMet_append]

theorem Select.values_exprs (o : Traversal) : ∀ x : Select ν,
    valuesAmong (x.exprs o) = valuesMet x.visits
  | ⟨_, quantifiers, projection, sources, filter, clauses⟩ => by
    simp only [Select.exprs, Select.visits, valuesAmong_append, valuesMet_append,
      values_exprsAll o quantifiers, values_exprsItems o projection,
      values_exprsSources o sources, values_exprsOption o filter, values_exprsAll o clauses]

theorem SetExpr.values_exprs (o : Traversal) : ∀ body : SetExpr ν,
    valuesAmong (body.exprs o) = valuesMet body.visits
  | .select x | .query x | .insert x | .update x | .delete x => x.values_exprs o
  | .operation _ _ l r => by
    rw [SetExpr.exprs, valuesAmong_append, l.values_exprs o, r.values_exprs o, SetExpr.visits,
      valuesMet_append]
  | .values _ rows => values_exprsRows o rows

theorem Cte.values_exprs (o : Traversal) : ∀ c : Cte ν,
    valuesAmong (c.exprs o) = valuesMet c.visits
  | ⟨_, _, _, q⟩ => q.values_exprs o

theorem values_exprsCtes (o : Traversal) : ∀ cs : List (Cte ν),
    valuesAmong (exprsCtes o cs) = valuesMet (visitsCtes cs)
  | [] => rfl
  | c :: cs => by
    rw [exprsCtes, valuesAmong_append, c.values_exprs o, values_exprsCtes o cs, visitsCtes,
      valuesMet_append]

theorem Query.values_exprs (o : Traversal) : ∀ q : Query ν,
    valuesAmong (q.exprs o) = valuesMet q.visits
  | ⟨_, ctes, body, clauses⟩ => by
    simp only [Query.exprs, Query.visits, valuesAmong_append, valuesMet_append,
      values_exprsCtes o ctes, body.values_exprs o, values_exprsAll o clauses]

theorem values_exprsQuery? (o : Traversal) : ∀ q : Option (Query ν),
    valuesAmong (exprsQuery? o q) = valuesMet (visitsQuery? q)
  | none => rfl
  | some q => q.values_exprs o

theorem Insert.values_exprs (o : Traversal) : ∀ x : Insert ν,
    valuesAmong (x.exprs o) = valuesMet x.visits
  | ⟨_, table, _, _, source, assignments, _, _, updates, updateFilter, clauses⟩ => by
    rw [Insert.visits, ← List.singleton_append, valuesMet_append]
    simp only [Insert.exprs, valuesAmong_append, valuesMet_append, values_exprsQuery? o source,
      values_exprsAssignments o assignments, values_exprsAssignments o updates,
      values_exprsOption o updateFilter, values_exprsAll o clauses]
    rfl

theorem Update.values_exprs (o : Traversal) : ∀ x : Update ν,
    valuesAmong (x.exprs o) = valuesMet x.visits
  | ⟨_, target, _, assignments, sources, filter, clauses⟩ => by
    simp only [Update.exprs, Update.visits, valuesAmong_append, valuesMet_append,
      target.values_exprs o, values_exprsAssignments o assignments,
      values_exprsSources o sources, values_exprsOption o filter, values_exprsAll o clauses]

theorem Delete.values_exprs (o : Traversal) : ∀ x : Delete ν,
    valuesAmong (x.exprs o) = valuesMet x.visits
  | ⟨_, _, sources, usingSources, filter, clauses⟩ => by
    simp only [Delete.exprs, Delete.visits, valuesAmong_append, valuesMet_append,
      values_exprsSources o sources, values_exprsSources o usingSources,
      values_exprsOption o filter, values_exprsAll o clauses]

end

theorem Statement.values_expressions (o : Traversal) (t : Statement ν) :
    valuesAmong (t.expressions o) = valuesMet t.visits := by
  induction t with
  | query q => exact q.values_exprs o
  | insert x => exact x.values_exprs o
  | update x => exact x.values_exprs o
  | delete x => exact x.values_exprs o
  | explain _ t ih => exact ih
  | other tables _ operands q =>
    rw [Statement.expressions, valuesAmong_append, values_exprsAll o operands,
      values_exprsQuery? o q, Statement.visits, valuesMet_append, valuesMet_append,
      valuesMet_tables, List.nil_append]

end Values

section Walks

variable (v : Visitor ν μ σ)

/-- An expression and what a walk makes of it, from some state. -/
def Visitor.Rebuilds (e : Expr ν) (e' : Expr μ) : Prop := ∃ s, (e.walk v s).1 = e'

theorem Traversal.rebuilds_around {v : Visitor ν μ σ} {e : Expr ν} {e' : Expr μ}
    {parts : List (Expr ν)} {parts' : List (Expr μ)} (o : Traversal) (whole : v.Rebuilds e e')
    (inner : List.Forall₂ v.Rebuilds parts parts') :
    List.Forall₂ v.Rebuilds (o.around e parts) (o.around e' parts') := by
  cases o with
  | preorder => exact .cons whole inner
  | postorder => exact List.rel_append inner (.cons whole .nil)

-- A walk of any part rebuilds each of its expressions in its place.
mutual

theorem Expr.exprs_walk (o : Traversal) : ∀ (e : Expr ν) (s : σ),
    List.Forall₂ v.Rebuilds (e.exprs o) ((e.walk v s).1.exprs o)
  | .column _ _, s | .value _, s | .star _, s => .cons ⟨s, rfl⟩ .nil
  | .nested e, s | .unary _ e, s | .isNull _ e, s | .argument _ _ e, s =>
    o.rebuilds_around ⟨s, rfl⟩ (e.exprs_walk o s)
  | .binary l _ r, s | .pattern _ _ l r _, s =>
    o.rebuilds_around ⟨s, rfl⟩ (List.rel_append (l.exprs_walk o s) (r.exprs_walk o _))
  | .inList _ e items, s =>
    o.rebuilds_around ⟨s, rfl⟩ (List.rel_append (e.exprs_walk o s) (exprsAll_walk o items _))
  | .inQuery _ e q, s =>
    o.rebuilds_around ⟨s, rfl⟩ (List.rel_append (e.exprs_walk o s) (q.exprs_walk o _))
  | .call _ _ args clauses tail, s =>
    o.rebuilds_around ⟨s, rfl⟩
      (List.rel_append (List.rel_append (exprsAll_walk o args s) (exprsAll_walk o clauses _))
        (exprsAll_walk o tail _))
  | .existence _ q, s | .subquery q, s => o.rebuilds_around ⟨s, rfl⟩ (q.exprs_walk o s)
  | .framed _ es, s => o.rebuilds_around ⟨s, rfl⟩ (exprsAll_walk o es s)

theorem exprsAll_walk (o : Traversal) : ∀ (es : List (Expr ν)) (s : σ),
    List.Forall₂ v.Rebuilds (exprsAll o es) (exprsAll o (walkExprs v es s).1)
  | [], _ => .nil
  | e :: es, s => List.rel_append (e.exprs_walk o s) (exprsAll_walk o es _)

theorem exprsOption_walk (o : Traversal) : ∀ (e : Option (Expr ν)) (s : σ),
    List.Forall₂ v.Rebuilds (exprsOption o e) (exprsOption o (walkOption v e s).1)
  | none, _ => .nil
  | some e, s => e.exprs_walk o s

theorem exprsRows_walk (o : Traversal) : ∀ (rows : List (List (Expr ν))) (s : σ),
    List.Forall₂ v.Rebuilds (exprsRows o rows) (exprsRows o (walkRows v rows s).1)
  | [], _ => .nil
  | row :: rows, s => List.rel_append (exprsAll_walk o row s) (exprsRows_walk o rows _)

theorem SelectItem.exprs_walk (o : Traversal) : ∀ (item : SelectItem ν) (s : σ),
    List.Forall₂ v.Rebuilds (item.exprs o) ((item.walk v s).1.exprs o)
  | ⟨e, _⟩, s => e.exprs_walk o s

theorem exprsItems_walk (o : Traversal) : ∀ (items : List (SelectItem ν)) (s : σ),
    List.Forall₂ v.Rebuilds (exprsItems o items) (exprsItems o (walkItems v items s).1)
  | [], _ => .nil
  | item :: items, s => List.rel_append (item.exprs_walk o s) (exprsItems_walk o items _)

theorem Assignment.exprs_walk (o : Traversal) : ∀ (a : Assignment ν) (s : σ),
    List.Forall₂ v.Rebuilds (a.exprs o) ((a.walk v s).1.exprs o)
  | ⟨_, e⟩, s => e.exprs_walk o s

theorem exprsAssignments_walk (o : Traversal) : ∀ (as : List (Assignment ν)) (s : σ),
    List.Forall₂ v.Rebuilds (exprsAssignments o as)
      (exprsAssignments o (walkAssignments v as s).1)
  | [], _ => .nil
  | a :: rest, s => List.rel_append (a.exprs_walk o s) (exprsAssignments_walk o rest _)

theorem TableFactor.exprs_walk (o : Traversal) : ∀ (factor : TableFactor ν) (s : σ),
    List.Forall₂ v.Rebuilds (factor.exprs o) ((factor.walk v s).1.exprs o)
  | .table _ _ args _, _ => exprsAll_walk o args _
  | .derived _ q _, s => q.exprs_walk o s
  | .nested item _, s => item.exprs_walk o s

theorem Join.exprs_walk (o : Traversal) : ∀ (j : Join ν) (s : σ),
    List.Forall₂ v.Rebuilds (j.exprs o) ((j.walk v s).1.exprs o)
  | ⟨_, _, relation, condition, _⟩, s =>
    List.rel_append (relation.exprs_walk o s) (exprsOption_walk o condition _)

theorem exprsJoins_walk (o : Traversal) : ∀ (js : List (Join ν)) (s : σ),
    List.Forall₂ v.Rebuilds (exprsJoins o js) (exprsJoins o (walkJoins v js s).1)
  | [], _ => .nil
  | j :: js, s => List.rel_append (j.exprs_walk o s) (exprsJoins_walk o js _)

theorem FromItem.exprs_walk (o : Traversal) : ∀ (item : FromItem ν) (s : σ),
    List.Forall₂ v.Rebuilds (item.exprs o) ((item.walk v s).1.exprs o)
  | ⟨relation, joins⟩, s =>
    List.rel_append (relation.exprs_walk o s) (exprsJoins_walk o joins _)

theorem exprsSources_walk (o : Traversal) : ∀ (items : List (FromItem ν)) (s : σ),
    List.Forall₂ v.Rebuilds (exprsSources o items) (exprsSources o (walkSources v items s).1)
  | [], _ => .nil
  | item :: items, s => List.rel_append (item.exprs_walk o s) (exprsSources_walk o items _)

theorem Select.exprs_walk (o : Traversal) : ∀ (x : Select ν) (s : σ),
    List.Forall₂ v.Rebuilds (x.exprs o) ((x.walk v s).1.exprs o)
  | ⟨_, quantifiers, projection, sources, filter, clauses⟩, s =>
    List.rel_append
      (List.rel_append
        (List.rel_append
          (List.rel_append (exprsAll_walk o quantifiers s) (exprsItems_walk o projection _))
          (exprsSources_walk o sources _))
        (exprsOption_walk o filter _))
      (exprsAll_walk o clauses _)

theorem SetExpr.exprs_walk (o : Traversal) : ∀ (body : SetExpr ν) (s : σ),
    List.Forall₂ v.Rebuilds (body.exprs o) ((body.walk v s).1.exprs o)
  | .select x, s | .query x, s | .insert x, s | .update x, s | .delete x, s => x.exprs_walk o s
  | .operation _ _ l r, s => List.rel_append (l.exprs_walk o s) (r.exprs_walk o _)
  | .values _ rows, s => exprsRows_walk o rows s

theorem Cte.exprs_walk (o : Traversal) : ∀ (c : Cte ν) (s : σ),
    List.Forall₂ v.Rebuilds (c.exprs o) ((c.walk v s).1.exprs o)
  | ⟨_, _, _, q⟩, s => q.exprs_walk o s

theorem exprsCtes_walk (o : Traversal) : ∀ (cs : List (Cte ν)) (s : σ),
    List.Forall₂ v.Rebuilds (exprsCtes o cs) (exprsCtes o (walkCtes v cs s).1)
  | [], _ => .nil
  | c :: cs, s => List.rel_append (c.exprs_walk o s) (exprsCtes_walk o cs _)

theorem Query.exprs_walk (o : Traversal) : ∀ (q : Query ν) (s : σ),
    List.Forall₂ v.Rebuilds (q.exprs o) ((q.walk v s).1.exprs o)
  | ⟨_, ctes, body, clauses⟩, s =>
    List.rel_append (List.rel_append (exprsCtes_walk o ctes s) (body.exprs_walk o _))
      (exprsAll_walk o clauses _)

theorem exprsQuery?_walk (o : Traversal) : ∀ (q : Option (Query ν)) (s : σ),
    List.Forall₂ v.Rebuilds (exprsQuery? o q) (exprsQuery? o (walkQuery? v q s).1)
  | none, _ => .nil
  | some q, s => q.exprs_walk o s

theorem Insert.exprs_walk (o : Traversal) : ∀ (x : Insert ν) (s : σ),
    List.Forall₂ v.Rebuilds (x.exprs o) ((x.walk v s).1.exprs o)
  | ⟨_, _, _, _, source, assignments, _, _, updates, updateFilter, clauses⟩, _ =>
    List.rel_append
      (List.rel_append
        (List.rel_append
          (List.rel_append (exprsQuery?_walk o source _) (exprsAssignments_walk o assignments _))
          (exprsAssignments_walk o updates _))
        (exprsOption_walk o updateFilter _))
      (exprsAll_walk o clauses _)

theorem Update.exprs_walk (o : Traversal) : ∀ (x : Update ν) (s : σ),
    List.Forall₂ v.Rebuilds (x.exprs o) ((x.walk v s).1.exprs o)
  | ⟨_, target, _, assignments, sources, filter, clauses⟩, s =>
    List.rel_append
      (List.rel_append
        (List.rel_append
          (List.rel_append (target.exprs_walk o s) (exprsAssignments_walk o assignments _))
          (exprsSources_walk o sources _))
        (exprsOption_walk o filter _))
      (exprsAll_walk o clauses _)

theorem Delete.exprs_walk (o : Traversal) : ∀ (x : Delete ν) (s : σ),
    List.Forall₂ v.Rebuilds (x.exprs o) ((x.walk v s).1.exprs o)
  | ⟨_, _, sources, usingSources, filter, clauses⟩, s =>
    List.rel_append
      (List.rel_append
        (List.rel_append (exprsSources_walk o sources s) (exprsSources_walk o usingSources _))
        (exprsOption_walk o filter _))
      (exprsAll_walk o clauses _)

end

theorem Statement.expressions_walk (o : Traversal) (t : Statement ν) (s : σ) :
    List.Forall₂ v.Rebuilds (t.expressions o) ((t.walk v s).1.expressions o) := by
  induction t generalizing s with
  | query q => exact q.exprs_walk v o s
  | insert x => exact x.exprs_walk v o s
  | update x => exact x.exprs_walk v o s
  | delete x => exact x.exprs_walk v o s
  | explain _ t ih => exact ih s
  | other tables _ operands q =>
    exact List.rel_append (exprsAll_walk v o operands _) (exprsQuery?_walk v o q _)

end Walks

end SealedColumns.Sql
